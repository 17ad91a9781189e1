import KnowledgeGraph.Proofs.Dialogue.Interruption
import KnowledgeGraph.Proofs.Graph.Extent
import KnowledgeGraph.Proofs.Search.Expansion
/-!
# What searches ask

Every run of a search, however it ends, asks what a run asks that is left
alone and refused nothing, or the first of it (`Repository.Orderly`). The
latter is a run against a repository that says less where the first one
refuses (`Repository.obliging`); ids lead on from there as before. So a
search that has finitely many ids before it ends, expands each of them at
most once and in the order of their distances, and asks for entities only
then, up to the first that is missing (`searches_orderly`).

A walk over all paths asks for entities on its way. It asks for none of
them twice, since it keeps those it was told (`Resolved.Covers`).
-/

namespace KnowledgeGraph

open Dialogue

open GraphQuestion (expanding resolving)

namespace Repository

/-! ## Nothing refused -/

/-- The repository that a search sees if nothing is refused: where there
was no answer nothing is found. Its extent is as told. -/
def obliging (r : Repository) (extent : ℕ) : Repository where
  answer
    | .entity id => .ok (r.answer (.entity id)).toOption.join
    | .relationships id outgoing incoming =>
      .ok ((r.answer (.relationships id outgoing incoming)).toOption.getD [])
    | .query q => r.answer (.query q)
  heedsTokens := r.heedsTokens
  extent := extent

variable {r r' : Repository} {source target : String} {extent : ℕ}

theorem links_obliging (r : Repository) (extent : ℕ) (id : String) :
    (r.obliging extent).links id = r.links id := by
  let asked : GraphQuestion := .relationships (.text id) (.bool true) (.bool false)
  have hanswer : (r.obliging extent).answer asked =
      .ok ((r.answer asked).toOption.getD []) := rfl
  unfold links
  rw [hanswer]
  cases r.answer asked <;> rfl

theorem entity?_obliging (r : Repository) (extent : ℕ) :
    (r.obliging extent).entity? = r.entity? := by
  funext id
  have hanswer : (r.obliging extent).answer (.entity (.text id)) =
      .ok (r.answer (.entity (.text id))).toOption.join := rfl
  unfold entity?
  rw [hanswer]
  cases r.answer (.entity (.text id)) <;> rfl

/-- What was answered is answered alike. -/
theorem answer_obliging {q : GraphQuestion} {a : q.Answer} (h : r.answer q = .ok a) :
    (r.obliging extent).answer q = .ok a := by
  cases q with
  | entity id => rw [obliging]; dsimp only; rw [h]; rfl
  | relationships id outgoing incoming => rw [obliging]; dsimp only; rw [h]; rfl
  | query q => exact h

theorem reaches_obliging_iff {id : String} :
    (r.obliging extent).Reaches source id ↔ r.Reaches source id := by
  rw [reaches_iff_exists_walk, reaches_iff_exists_walk]
  constructor
  · rintro ⟨places, steps, hwalk⟩
    exact ⟨places, steps, hwalk.of_links (r.links_obliging extent)⟩
  · rintro ⟨places, steps, hwalk⟩
    exact ⟨places, steps, hwalk.of_links fun id => (r.links_obliging extent id).symm⟩

/-- **If nothing is refused a source can be surveyed** as soon as what can be
reached is finite. -/
theorem surveyable_obliging (hfinite : { id | r.Reaches source id }.Finite)
    (hextent : ∑ id ∈ hfinite.toFinset, (r.links id).length ≤ extent) :
    (r.obliging extent).Surveyable source := by
  have hsame : { id | (r.obliging extent).Reaches source id } = { id | r.Reaches source id } :=
    Set.ext fun _ => reaches_obliging_iff
  refine ⟨fun id _ => ⟨_, rfl⟩, fun id _ => ⟨_, rfl⟩, hsame ▸ hfinite, ?_⟩
  have hids : (hsame ▸ hfinite : { id | (r.obliging extent).Reaches source id }.Finite).toFinset =
      hfinite.toFinset := by
    ext id
    rw [Set.Finite.mem_toFinset, Set.Finite.mem_toFinset, hsame]
  have hsum : ∑ id ∈ hfinite.toFinset, ((r.obliging extent).links id).length =
      ∑ id ∈ hfinite.toFinset, (r.links id).length :=
    Finset.sum_congr rfl fun id _ => by rw [links_obliging]
  rw [hids, hsum]
  exact hextent

/-- What a search asks and finds is a matter of relationships and
entities. -/
theorem Completes.of_same {δ : Type} [LE δ] {measure : Way → δ} {asked : List GraphQuestion}
    {path? : Option Path} (hlinks : ∀ id, r.links id = r'.links id)
    (hentity : r.entity? = r'.entity?) (h : r.Completes measure source target asked path?) :
    r'.Completes measure source target asked path? := by
  have hwalk : ∀ {id places steps last}, r'.Walk id places steps last →
      r.Walk id places steps last := fun h => h.of_links fun id => (hlinks id).symm
  have hexpands : ∀ {expanded}, r.Expands measure source target expanded →
      r'.Expands measure source target expanded := by
    intro expanded h
    refine ⟨h.nodup, h.missed, fun x hx => ?_, h.ordered,
      fun x hx places steps hw => h.within x hx places steps (hwalk hw)⟩
    obtain ⟨⟨places, steps, hw, hd⟩, hleast⟩ := h.distance x hx
    exact ⟨⟨places, steps, hw.of_links hlinks, hd⟩, fun _ _ hw => hleast _ _ (hwalk hw)⟩
  have hmissing : ∀ ids, r.untilMissing ids = r'.untilMissing ids := by
    intro ids
    induction ids with
    | nil => rfl
    | cons id ids ih => rw [untilMissing, untilMissing, hentity, ih]
  cases h with
  | along hexp hw hnodup hleast hpath =>
    rw [hmissing]
    refine .along (hexpands hexp) (hw.of_links hlinks) hnodup
      (fun _ _ hw => hleast _ _ (hwalk hw)) ?_
    rw [hpath]
    simp only [pathOf, hentity]
  | nowhere hexp hno =>
    refine .nowhere (hexpands hexp) fun hreaches => hno ?_
    obtain ⟨places, steps, hw⟩ := reaches_iff_exists_walk.1 hreaches
    exact (hwalk hw).reaches .start

/-- **Whether a run is orderly**: it asks and finds what a search does that
is left alone, or asks the first of it and then is stopped or refused. It
never runs out of turns. -/
def Orderly {δ : Type} [LE δ] (r : Repository) (token : Option Token) (measure : Way → δ)
    (source target : String) (run : Run GraphQuestion (Option Path)) : Prop :=
  ∃ asked path?, r.Completes measure source target asked path? ∧
    (run = ⟨asked, .ok path?⟩ ∨ BreaksOff r.answer token asked run)

/-- A run is orderly if it would be so with nothing refused. -/
theorem orderly_of_obliging {δ : Type} [LE δ] {measure : Way → δ} {d : GraphDialogue (Option Path)}
    (h : ∃ asked path?, d.play (r.obliging extent).answer = ⟨asked, .ok path?⟩ ∧
      (r.obliging extent).Completes measure source target asked path?) (token : Option Token) :
    r.Orderly token measure source target (r.run token d) := by
  obtain ⟨asked, path?, hplay, hcompletes⟩ := h
  have hfull : ∀ q a, r.answer q = .ok a → (r.obliging extent).answer q = .ok a :=
    fun _ _ => answer_obliging
  have hrun := r.run_eq_play_or_breaksOff token hfull d
  rw [hplay] at hrun
  exact ⟨asked, path?,
    hcompletes.of_same (r.links_obliging extent) (r.entity?_obliging extent), hrun⟩

end Repository

/-! ## Entities told once -/

/-- Whether an entity is asked for. -/
def GraphQuestion.AsksEntity (q : GraphQuestion) : Prop := ∃ id, q = .entity id

namespace Resolved

/-- Whether all entities that were asked for are known. -/
def Covers (asked : List GraphQuestion) (known : Resolved) : Prop :=
  ∀ id, .entity id ∈ asked → ∃ key, id = .text key ∧ (known.lookup key).isSome

variable {asked : List GraphQuestion} {known : Resolved}

/-- Other questions ask for no entity. -/
theorem Covers.cons (h : known.Covers asked) {q : GraphQuestion} (hq : ¬ q.AsksEntity) :
    known.Covers (q :: asked) := by
  intro id hid
  rcases List.mem_cons.1 hid with rfl | hid
  · exact absurd ⟨id, rfl⟩ hq
  · exact h id hid

/-- **An entity is asked for if it is not known**, and known from then on. -/
theorem Covers.entity (h : known.Covers asked) (id : String) :
    (known.entity id).AsksAnew GraphQuestion.AsksEntity (fun asked x => x.2.Covers asked) asked := by
  unfold Resolved.entity
  cases hlookup : known.lookup id with
  | some entity? => exact h
  | none =>
    refine ⟨fun _ hmem => ?_, fun entity? => ?_⟩
    · obtain ⟨key, hkey, hknown⟩ := h _ hmem
      obtain rfl := Value.text.inj hkey
      rw [hlookup] at hknown
      cases hknown
    · intro other hother
      rcases List.mem_cons.1 hother with heq | hother
      · obtain rfl := GraphQuestion.entity.inj heq
        exact ⟨id, rfl, by rw [List.lookup_cons_self]; rfl⟩
      · obtain ⟨key, rfl, hknown⟩ := h other hother
        refine ⟨key, rfl, ?_⟩
        by_cases hsame : key = id
        · rw [hsame, List.lookup_cons_self]
          rfl
        · rwa [lookup_cons_of_ne hsame]

theorem Covers.entities (h : known.Covers asked) (ids : List String) :
    (entities ids known).AsksAnew GraphQuestion.AsksEntity (fun asked x => x.2.Covers asked)
      asked := by
  induction ids generalizing known asked with
  | nil => exact h
  | cons id ids ih =>
    refine (h.entity id).bind fun asked (entity?, known) h => ?_
    cases entity? with
    | none => exact h
    | some e => exact (ih h).bind fun asked x h => h

theorem Covers.path (h : known.Covers asked) (ids : List String) (followed : List Relationship)
    (weight : Binary64) :
    (known.path ids followed weight).AsksAnew GraphQuestion.AsksEntity
      (fun asked x => x.2.Covers asked) asked := by
  refine (h.entities ids).bind fun asked (entities?, known) h => ?_
  cases entities? with
  | none => exact h
  | some es =>
    dsimp only
    cases (Path.ofParts es followed weight).orFault .path with
    | ok p => exact h
    | error f => trivial

end Resolved

namespace Search

open Repository

open GraphQuestion (AsksEntity)

section Told

variable {asked : List GraphQuestion} {s : Depth.State}

theorem asksAnew_collect (h : s.resolved.Covers asked) (next : String) (rel : Relationship) :
    (Depth.collect s next rel).AsksAnew AsksEntity (fun asked s => s.resolved.Covers asked)
      asked :=
  (h.path _ _ _).bind fun _ _ h => h

theorem asksAnew_advance (h : s.resolved.Covers asked) (next : String) (rel : Relationship) :
    (Depth.advance s next rel).AsksAnew AsksEntity (fun asked s => s.resolved.Covers asked)
      asked :=
  ⟨fun ⟨_, hq⟩ => (nomatch hq), fun _ => h.cons fun ⟨_, hq⟩ => nomatch hq⟩

/-- **A turn of the walk asks for no entity that it was told.** -/
theorem asksAnew_turn (goal : Option String) (maxHops : ℕ) (h : s.resolved.Covers asked) :
    (Depth.turn goal maxHops s).AsksAnew AsksEntity
      (fun asked t => ∀ s', t = .again s' → s'.resolved.Covers asked) asked := by
  -- whatever becomes of the walk, what it was told stays
  have hagain : ∀ {asked : List GraphQuestion} {s : Depth.State}, s.resolved.Covers asked →
      (.done (.again s) : GraphDialogue (Turn Depth.State (List Path))).AsksAnew AsksEntity
        (fun asked t => ∀ s', t = .again s' → s'.resolved.Covers asked) asked := by
    rintro asked s h s' ⟨⟩
    exact h
  unfold Depth.turn
  cases s.stack with
  | nil => exact fun _ h => nomatch h
  | cons frame below =>
    obtain ⟨id, untried⟩ := frame
    cases untried with
    | nil => exact hagain h
    | cons rel untried =>
      have htried : ({ s with stack := ⟨id, untried⟩ :: below } : Depth.State).resolved.Covers
        asked := h
      dsimp only
      rw [asksAnew_poll]
      cases rel.neighborOf id with
      | none => exact hagain h
      | some next =>
        dsimp only
        split
        · exact hagain h
        · split
          · exact (asksAnew_collect htried next rel).bind fun _ _ h => hagain h
          · split
            · exact (asksAnew_advance htried next rel).bind fun _ _ h => hagain h
            · exact hagain h

end Told

/-- **The walk over all paths asks for each entity once at most.** -/
theorem asksAnew_allPaths (budget : ℕ) (source : String) (goal : Option String) (maxHops : ℕ) :
    (allPaths budget source goal maxHops).AsksAnew AsksEntity (fun _ _ => True) [] := by
  unfold allPaths
  rw [asksAnew_poll]
  split
  · exact ⟨fun _ => List.not_mem_nil, fun _ => trivial⟩
  · split
    · trivial
    · refine ⟨fun _ => List.not_mem_nil, fun untried => ?_⟩
      have hnone : Resolved.Covers [.relationships (.text source) (.bool true) (.bool false)] [] := by
        intro id hid
        exact nomatch List.mem_singleton.1 hid
      exact AsksAnew.iterate (fun asked s => s.resolved.Covers asked)
        (fun asked s h => asksAnew_turn goal maxHops h) budget hnone

variable {r : Repository} {source : String}

/-- **Both searches for one path are orderly** with a budget for as many
relationships as can be reached. -/
theorem orderly_run (hfinite : { id | r.Reaches source id }.Finite) {extent : ℕ}
    (hextent : ∑ id ∈ hfinite.toFinset, (r.links id).length ≤ extent) (token : Option Token)
    (target : String) :
    r.Orderly token List.length source target
        (r.run token (fewestHops (idBudget extent) source (some target))) ∧
      r.Orderly token Weighted.weigh source target
        (r.run token (leastWeight (idBudget extent) source (some target))) := by
  have hr : (r.obliging extent).Surveyable source := surveyable_obliging hfinite hextent
  exact ⟨orderly_of_obliging (play_fewestHops_completes hr target) token,
    orderly_of_obliging (play_leastWeight_completes hr target) token⟩

/-- **What searches ask.** If finitely many ids can be reached from a
source, both searches for one path come to an end, whatever their token
does and whatever the repository refuses, and their runs are orderly, the
one by numbers of relationships and the other by weight. One turn for each
relationship that can be reached is enough, besides the source's and the
last; so it is with the repository's own extent, if that is not
understated. And a walk over all paths asks for each entity once at most,
wherever it ends. -/
theorem searches_orderly (r : Repository) (token : Option Token) (source target : String) :
    (∀ hfinite : { id | r.Reaches source id }.Finite,
      (∀ budget ≥ idBudget (∑ id ∈ hfinite.toFinset, (r.links id).length),
        r.Orderly token List.length source target
          (r.run token (fewestHops budget source (some target))) ∧
        r.Orderly token Weighted.weigh source target
          (r.run token (leastWeight budget source (some target)))) ∧
      (∑ id ∈ hfinite.toFinset, (r.links id).length ≤ r.extent →
        r.Orderly token List.length source target
          (r.fewestHops token (.text source) (.text target)) ∧
        r.Orderly token Weighted.weigh source target
          (r.leastWeight token (.text source) (.text target)))) ∧
    ∀ budget maxHops id,
      (r.run token (allPaths budget source (some target) maxHops)).asked.count (.entity id) ≤ 1 := by
  refine ⟨fun hfinite => ⟨fun budget hbudget => ?_, fun hextent => ?_⟩,
    fun budget maxHops id => ?_⟩
  · -- any budget from there on is what some extent affords
    obtain ⟨extent, rfl⟩ : ∃ extent, budget = idBudget extent :=
      ⟨budget - 2, by unfold idBudget at *; omega⟩
    exact orderly_run hfinite (Nat.le_of_add_le_add_right hbudget) token target
  · rw [Repository.fewestHops, Repository.leastWeight, fewestHopsBetween_text,
      leastWeightBetween_text]
    exact orderly_run hfinite hextent token target
  · have hcount := (asksAnew_allPaths budget source (some target) maxHops).count_le_one
      (q := .entity id) ⟨id, rfl⟩ (Nat.zero_le _)
      (fun call q => r.reply (checkToken token call) q) token 0
    rwa [List.count_nil, Nat.zero_add] at hcount

/-- A graph with two relationships side by side, a loop, a cycle, and a way
round that is lighter than the straight one. Only its ends have
entities. -/
def roundabout : Listing :=
  let label : TypeLabel := ⟨"Junction", by decide⟩
  let link (id source target : String) (weight : Binary64) (hweight : .zero ≤ weight) :
      Relationship :=
    ⟨id, label, source, target, [], weight, true, none, hweight⟩
  ⟨[⟨"a", label, [], none⟩, ⟨"d", label, [], none⟩],
    [("a", [link "1" "a" "b" .one Binary64.zero_le_one,
        link "2" "a" "b" .zero Binary64.zero_le_zero,
        link "3" "a" "d" .one Binary64.zero_le_one]),
      ("b", [link "4" "b" "b" .zero Binary64.zero_le_zero,
        link "5" "b" "c" .zero Binary64.zero_le_zero]),
      ("c", [link "6" "c" "a" .one Binary64.zero_le_one,
        link "7" "c" "d" .zero Binary64.zero_le_zero])]⟩

/-- There, with a token that is cancelled during the third call. Left alone
the search by weight expands all ids but the target, and then misses the
first entity on the way round. -/
theorem searches_orderly_roundabout :
    let r := roundabout.repository
    let token : Option Token := some ⟨some 3, none⟩
    (∃ hfinite : { id | r.Reaches "a" id }.Finite,
      (∀ budget ≥ idBudget (∑ id ∈ hfinite.toFinset, (r.links id).length),
        r.Orderly token List.length "a" "d" (r.run token (fewestHops budget "a" (some "d"))) ∧
        r.Orderly token Weighted.weigh "a" "d"
          (r.run token (leastWeight budget "a" (some "d")))) ∧
      r.Orderly token List.length "a" "d" (r.fewestHops token (.text "a") (.text "d")) ∧
      r.Orderly token Weighted.weigh "a" "d" (r.leastWeight token (.text "a") (.text "d")) ∧
      ∀ budget maxHops id,
        (r.run token (allPaths budget "a" (some "d") maxHops)).asked.count (.entity id) ≤ 1) ∧
    (r.leastWeight none (.text "a") (.text "d")).asked =
      [expanding "a", expanding "b", expanding "c", resolving "a", resolving "b"] := by
  intro r token
  have hr : r.Surveyable "a" := roundabout.surveyable "a"
  obtain ⟨hsearches, hwalk⟩ := searches_orderly r token "a" "d"
  obtain ⟨hbudget, hextent⟩ := hsearches hr.finite
  obtain ⟨hhops, hweight⟩ := hextent hr.extent
  exact ⟨⟨hr.finite, hbudget, hhops, hweight, hwalk⟩, by decide +kernel⟩

end Search

end KnowledgeGraph
