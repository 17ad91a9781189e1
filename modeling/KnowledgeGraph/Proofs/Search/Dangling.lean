import KnowledgeGraph.Proofs.Graph.Choices
import KnowledgeGraph.Proofs.Search.Shortest
import KnowledgeGraph.Proofs.Search.Weighted
/-!
# Entities that are missing

A relationship may lead to an id that has no entity. The searches follow
ids, and ask for entities only once a way is chosen. The search for all
paths leaves out the ways on which an entity is missing, so it finds
something as soon as one way is intact (`intact_iff_exists_allPaths`). A
search for one path chooses one way without a look at entities, and if an
entity is missing there it finds nothing, whatever other ways there are
(`outcome_of_dangling`, `intact_hidden`).
-/

namespace KnowledgeGraph

namespace Repository

/-- Whether an entity is missing along some steps from a source. -/
def Broken (r : Repository) (source : String) (steps : Way) : Prop :=
  ∃ id ∈ source :: steps.map Prod.snd, r.entity? id = none

/-- Whether a walk leads to a goal on which no entity is missing. -/
def Intact (r : Repository) (source goal : String) : Prop :=
  ∃ places steps, r.Walk source places steps goal ∧ ¬ r.Broken source steps

variable {r : Repository} {source goal : String} {places : List ℕ} {steps : Way}

theorem not_broken_iff :
    ¬ r.Broken source steps ↔ ∀ id ∈ source :: steps.map Prod.snd, (r.entity? id).isSome := by
  simp only [Broken, not_exists, not_and, Option.isSome_iff_ne_none, ne_eq]

/-- **There is no path along a broken way**, and there is one along any
other. -/
theorem pathOf_eq_none_iff : r.pathOf source steps = none ↔ r.Broken source steps := by
  constructor
  · intro hnone
    by_contra hbroken
    have hsome := isSome_pathOf (not_broken_iff.1 hbroken)
    rw [hnone] at hsome
    cases hsome
  · rintro ⟨id, hid, hentity⟩
    cases hpath : r.pathOf source steps with
    | none => rfl
    | some p =>
      have hsome := isSome_entity?_of_pathOf hpath hid
      rw [hentity] at hsome
      cases hsome

/-! ## One way chosen -/

/-- None is found along first walks exactly if these are broken. -/
theorem FirstPath.eq_none_iff {path? : Option Path} (h : r.FirstPath source goal path?) :
    path? = none ↔
      ∀ places steps, r.FirstWalk source places steps goal → r.Broken source steps := by
  cases h with
  | along hfirst =>
    rw [pathOf_eq_none_iff]
    constructor
    · intro hbroken places' steps' hfirst'
      -- there is one first walk only
      have hplaces := rank_injective (le_antisymm (hfirst.2 _ _ hfirst'.1) (hfirst'.2 _ _ hfirst.1))
      obtain ⟨rfl, -⟩ := hfirst.1.unique (hplaces ▸ hfirst'.1)
      exact hbroken
    · exact fun hall => hall _ _ hfirst
  | nowhere hno =>
    exact ⟨fun _ places steps hfirst => absurd hfirst.1 (hno places steps), fun _ => rfl⟩

end Repository

namespace Search

open Repository

variable {r : Repository} {source : String}

/-! ## All ways tried -/

/-- **The search for all paths finds something as soon as one way is
intact**, within some limit. -/
theorem intact_iff_exists_allPaths (hr : r.Surveyable source) (target : String) :
    r.Intact source target ↔ ∃ limit paths,
      (r.allPaths none (.text source) (.text target) limit).outcome = .ok paths ∧ paths ≠ [] := by
  constructor
  · rintro ⟨places, steps, hwalk, hintact⟩
    obtain ⟨places', steps', hwalk', hnodup, hsubset⟩ := hwalk.exists_nodup
    have hintact' : ¬ r.Broken source steps' := fun ⟨id, hid, hnone⟩ =>
      hintact ⟨id, hsubset id hid, hnone⟩
    obtain ⟨p, hp⟩ := Option.ne_none_iff_exists'.1 (mt pathOf_eq_none_iff.1 hintact')
    have hway : steps' ∈ r.waysTo target steps'.length source :=
      mem_waysTo_of_walk hwalk' hnodup le_rfl
    have hmem : p ∈ (r.waysTo target steps'.length source).filterMap (r.pathOf source) :=
      List.mem_filterMap.2 ⟨steps', hway, hp⟩
    exact ⟨.atMost steps'.length, _, outcome_allPaths hr target _, List.ne_nil_of_mem hmem⟩
  · rintro ⟨limit, paths, houtcome, hne⟩
    rw [outcome_allPaths hr target limit] at houtcome
    obtain rfl := Except.ok.inj houtcome
    obtain ⟨p, hp⟩ := List.exists_mem_of_ne_nil _ hne
    obtain ⟨steps, hway, hpath⟩ := List.mem_filterMap.1 hp
    obtain ⟨places, hwalk⟩ := walk_of_mem_waysTo hway
    refine ⟨places, steps, hwalk, fun hbroken => ?_⟩
    rw [pathOf_eq_none_iff.2 hbroken] at hpath
    cases hpath

/-! ## One way chosen -/

theorem outcome_leastWeight (hr : r.Surveyable source) (target : String) :
    ∃ way? : Option Way, (way? = none ↔ ¬ r.Reaches source target) ∧
      (∀ steps ∈ way?, ∃ places, r.Walk source places steps target) ∧
      ∀ r' : Repository, r.SameLinks r' → r'.Surveyable source → ∃ path?,
        (r'.leastWeight none (.text source) (.text target)).outcome = .ok path? ∧
          (path? = none ↔ ∀ steps ∈ way?, r'.Broken source steps) := by
  obtain ⟨way?, hnone, hwalk, hfound⟩ := exists_way_leastWeight hr target
  refine ⟨way?, hnone, hwalk, fun r' hlinks hr' => ?_⟩
  obtain ⟨path?, hplay, hpath⟩ := hfound r' hlinks hr'
  refine ⟨path?, ?_, ?_⟩
  · rw [Repository.leastWeight, run_none, leastWeightBetween_text]
    exact hplay
  · rw [← Option.map_eq_none_iff, hpath]
    cases way? with
    | none => exact ⟨fun _ _ h => (nomatch h), fun _ => rfl⟩
    | some steps =>
      rw [Option.bind_some, pathOf_eq_none_iff]
      exact ⟨fun hbroken _ h => Option.some.inj h ▸ hbroken, fun hall => hall steps rfl⟩

/-- **What a missing entity hides.** The search for all paths finds
something, within some limit, exactly if a way is intact. The search for
the fewest relationships finds nothing exactly if the first walk is
broken, or there is none. And that for the least weight chooses a way by
relationships alone, the same whatever entities there are, and finds
nothing exactly if that is broken, or there is none to choose. -/
theorem outcome_of_dangling (hr : r.Surveyable source) (target : String) :
    (r.Intact source target ↔ ∃ limit paths,
      (r.allPaths none (.text source) (.text target) limit).outcome = .ok paths ∧ paths ≠ []) ∧
    (∃ short, (r.fewestHops none (.text source) (.text target)).outcome = .ok short ∧
      (short = none ↔ ∀ places steps, r.FirstWalk source places steps target →
        r.Broken source steps)) ∧
    ∃ chosen : Option Way, (chosen = none ↔ ¬ r.Reaches source target) ∧
      (∀ steps ∈ chosen, ∃ places, r.Walk source places steps target) ∧
      ∀ r' : Repository, r.SameLinks r' → r'.Surveyable source → ∃ light,
        (r'.leastWeight none (.text source) (.text target)).outcome = .ok light ∧
          (light = none ↔ ∀ steps ∈ chosen, r'.Broken source steps) := by
  obtain ⟨short, hshort, hfirst⟩ := outcome_fewestHops hr target
  exact ⟨intact_iff_exists_allPaths hr target, ⟨short, hshort, hfirst.eq_none_iff⟩,
    outcome_leastWeight hr target⟩

/-- A graph in which an entity is missing on the first of two ways. -/
def hiddenGraph : Listing :=
  let label : TypeLabel := ⟨"Node", by decide⟩
  let link (id source target : String) : Relationship :=
    ⟨id, label, source, target, [], Relationship.defaultWeight.1, true, none,
      Relationship.defaultWeight.2⟩
  ⟨[⟨"s", label, [], none⟩, ⟨"a", label, [], none⟩, ⟨"t", label, [], none⟩],
    [("s", [link "1" "s" "d", link "2" "s" "a"]), ("d", [link "3" "d" "t"]),
      ("a", [link "4" "a" "t"])]⟩

/-- There each search for one path finds something exactly if an entity is
there for every id on the way it chose. -/
theorem outcome_of_dangling_hidden :
    let r := hiddenGraph.repository
    r.Surveyable "s" ∧ r.SameLinks r ∧
    (r.Intact "s" "t" ↔ ∃ limit paths,
      (r.allPaths none (.text "s") (.text "t") limit).outcome = .ok paths ∧ paths ≠ []) ∧
    (∃ short, (r.fewestHops none (.text "s") (.text "t")).outcome = .ok short ∧
      (short = none ↔ ∀ places steps, r.FirstWalk "s" places steps "t" → r.Broken "s" steps)) ∧
    ∃ (chosen : Option Way) (light : Option Path), (chosen = none ↔ ¬ r.Reaches "s" "t") ∧
      (∀ steps ∈ chosen, ∃ places, r.Walk "s" places steps "t") ∧
      (r.leastWeight none (.text "s") (.text "t")).outcome = .ok light ∧
      (light = none ↔ ∀ steps ∈ chosen, r.Broken "s" steps) := by
  intro r
  have hr : r.Surveyable "s" := hiddenGraph.surveyable "s"
  have hlinks : r.SameLinks r := .refl r
  obtain ⟨hall, hshort, chosen, hnone, hwalk, hlight⟩ := outcome_of_dangling hr "t"
  obtain ⟨light, houtcome, hbroken⟩ := hlight r hlinks hr
  exact ⟨hr, hlinks, hall, hshort, chosen, light, hnone, hwalk, houtcome, hbroken⟩

/-- **The intact way is hidden** from both searches for one path by the
broken one, which is as long and as heavy and comes first. -/
theorem intact_hidden :
    let r := hiddenGraph.repository
    r.Surveyable "s" ∧ r.Intact "s" "t" ∧
      (r.fewestHops none (.text "s") (.text "t")).outcome = .ok none ∧
      (r.leastWeight none (.text "s") (.text "t")).outcome = .ok none := by
  intro r
  have hintact : r.Intact "s" "t" := by
    refine ⟨[1, 0], _, .step rfl rfl (.step rfl rfl .here), ?_⟩
    rw [not_broken_iff]
    decide
  refine ⟨hiddenGraph.surveyable "s", hintact, ?_, ?_⟩
  · rw [Repository.fewestHops, run_none, fewestHopsBetween_text]
    decide +kernel
  · rw [Repository.leastWeight, run_none, leastWeightBetween_text]
    decide +kernel

end Search

end KnowledgeGraph
