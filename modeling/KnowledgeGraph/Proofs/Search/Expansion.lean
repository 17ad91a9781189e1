import KnowledgeGraph.Proofs.Search.Lightest
/-!
# The order in which ids are expanded

An id is expanded when its relationships are asked for. Both searches for
one path expand ids in the order of their distances, the true ones, and
none further away than the target (`Expands`). It is enough to look at one
id more: what a search takes next is nearest among all that it has not
taken (`Expands.concat`).

Only then are entities asked for, those along the chosen way, up to the
first that is missing (`asked_pathAlong`). So all that a search asks is
known, in order (`Completes`), from what it does in one turn.
-/

namespace KnowledgeGraph

namespace GraphQuestion

/-- What is asked to expand an id. -/
def expanding (id : String) : GraphQuestion := .relationships (.text id) (.bool true) (.bool false)

/-- What is asked for the entity with an id. -/
def resolving (id : String) : GraphQuestion := .entity (.text id)

end GraphQuestion

open GraphQuestion (expanding resolving)

namespace Repository

/-! ## Distances -/

section Distances

variable {δ : Type} [LE δ]

/-- Whether an id is at a distance from a source: so much some walk there
measures, and none measures less. -/
structure IsDistance (r : Repository) (measure : Way → δ) (source id : String) (d : δ) : Prop where
  attained : ∃ places steps, r.Walk source places steps id ∧ measure steps = d
  least : ∀ places steps, r.Walk source places steps id → d ≤ measure steps

/-- Whether ids, with their distances, may be expanded in some order: none
of them twice and the target not at all, the nearer first, and none that is
further away than the target. All of them can be reached, for they have a
distance. -/
structure Expands (r : Repository) (measure : Way → δ) (source target : String)
    (expanded : List (String × δ)) : Prop where
  nodup : (expanded.map Prod.fst).Nodup
  missed : target ∉ expanded.map Prod.fst
  distance : ∀ x ∈ expanded, r.IsDistance measure source x.1 x.2
  ordered : expanded.Pairwise fun x y => x.2 ≤ y.2
  within : ∀ x ∈ expanded, ∀ places steps, r.Walk source places steps target → x.2 ≤ measure steps

variable {r r' : Repository} {measure : Way → δ} {source target : String}
  {expanded : List (String × δ)} {id : String} {d : δ}

theorem expands_nil (r : Repository) (measure : Way → δ) (source target : String) :
    r.Expands measure source target [] :=
  ⟨List.nodup_nil, List.not_mem_nil, fun _ hx => (nomatch hx), .nil, fun _ hx => (nomatch hx)⟩

/-- **One id more is expanded in order** if it is new and nearer than the
target, and the others are not further away. -/
theorem Expands.concat (h : r.Expands measure source target expanded)
    (hnew : id ∉ expanded.map Prod.fst) (hgoal : id ≠ target)
    (hdistance : r.IsDistance measure source id d) (hfar : ∀ x ∈ expanded, x.2 ≤ d)
    (hnear : ∀ places steps, r.Walk source places steps target → d ≤ measure steps) :
    r.Expands measure source target (expanded ++ [(id, d)]) := by
  have hcases : ∀ {p : String × δ → Prop}, (∀ x ∈ expanded, p x) → p (id, d) →
      ∀ x ∈ expanded ++ [(id, d)], p x := fun hold hlast =>
    List.forall_mem_append.2 ⟨hold, List.forall_mem_singleton.2 hlast⟩
  constructor
  case nodup =>
    rw [List.map_append, List.nodup_append']
    exact ⟨h.nodup, List.nodup_singleton _, List.disjoint_singleton.2 hnew⟩
  case missed =>
    rw [List.map_append, List.mem_append, not_or]
    exact ⟨h.missed, fun hmem => hgoal (List.mem_singleton.1 hmem).symm⟩
  case distance => exact hcases h.distance hdistance
  case ordered =>
    rw [List.pairwise_append]
    refine ⟨h.ordered, List.pairwise_singleton _ _, fun x hx y hy => ?_⟩
    obtain rfl := List.mem_singleton.1 hy
    exact hfar x hx
  case within => exact hcases h.within hnear

end Distances

/-! ## What a search asks -/

/-- Of some ids those up to the first that has no entity. -/
def untilMissing (r : Repository) : List String → List String
  | [] => []
  | id :: ids => if (r.entity? id).isSome then id :: r.untilMissing ids else [id]

/-- **What a search asks that is left alone, and what it finds.** It expands
ids, and if the target can be reached it then asks for the entities along a
walk there that is as short as can be and comes to no id twice. -/
inductive Completes {δ : Type} [LE δ] (r : Repository) (measure : Way → δ)
    (source target : String) : List GraphQuestion → Option Path → Prop where
  | along {expanded : List (String × δ)} {places : List ℕ} {steps : Way} {path? : Option Path} :
      r.Expands measure source target expanded → r.Walk source places steps target →
      (source :: steps.map Prod.snd).Nodup →
      (∀ places' steps', r.Walk source places' steps' target → measure steps ≤ measure steps') →
      path?.map Path.unweighted = r.pathOf source steps →
      Completes r measure source target
        (expanded.map (fun x => expanding x.1) ++
          (r.untilMissing (source :: steps.map Prod.snd)).map resolving) path?
  | nowhere {expanded : List (String × δ)} :
      r.Expands measure source target expanded → ¬ r.Reaches source target →
      Completes r measure source target (expanded.map fun x => expanding x.1) none

end Repository

namespace Search

open Repository Dialogue

variable {r : Repository} {source target : String}

/-! ## Entities along a way -/

/-- Entities are asked for one after the other, up to the first that is
missing. -/
theorem asked_entities {ids : List String} (hnodup : ids.Nodup)
    (hids : ∀ id ∈ ids, r.answer (.entity (.text id)) = .ok (r.entity? id)) {known : Resolved}
    (hnew : ∀ id ∈ ids, known.lookup id = none) :
    ((Resolved.entities ids known).play r.answer).asked = (r.untilMissing ids).map resolving := by
  induction ids generalizing known with
  | nil => rfl
  | cons id ids ih =>
    obtain ⟨hfirst, hrest⟩ := List.nodup_cons.1 hnodup
    obtain ⟨hanswer, hanswers⟩ := List.forall_mem_cons.1 hids
    have hnew' : ∀ other ∈ ids, List.lookup other ((id, r.entity? id) :: known) = none := by
      intro other hother
      have hne : other ≠ id := fun heq => hfirst (heq ▸ hother)
      rw [lookup_cons_of_ne hne]
      exact hnew other (List.mem_cons_of_mem _ hother)
    have hentity : (known.entity id).play r.answer =
        ⟨[resolving id], .ok (r.entity? id, (id, r.entity? id) :: known)⟩ := by
      unfold Resolved.entity
      rw [hnew id List.mem_cons_self]
      exact play_ask_of_ok hanswer _
    rw [Resolved.entities, play_bind, hentity, Run.andThen_ok, untilMissing]
    cases hid : r.entity? id with
    | none => rfl
    | some e =>
      dsimp only
      rw [play_bind, Run.asked_andThen _ fun _ => rfl, ih hrest hanswers (hid ▸ hnew')]
      rfl

/-- **For a path its entities are asked for**, and nothing else. -/
theorem asked_pathAlong {trace : Trace} {steps : Way} (hleads : trace.Leads source target steps)
    (hlength : steps.length ≤ trace.length) (hnodup : (source :: steps.map Prod.snd).Nodup)
    (hids : ∀ id ∈ source :: steps.map Prod.snd,
      r.answer (.entity (.text id)) = .ok (r.entity? id)) (weight : Binary64) :
    ((pathAlong trace source target weight).play r.answer).asked =
      (r.untilMissing (source :: steps.map Prod.snd)).map resolving := by
  rw [pathAlong, hleads.back_eq hlength, Dialogue.ofExcept, Dialogue.bind, play_bind,
    Run.asked_andThen _ fun _ => rfl, Resolved.path, play_bind, Run.asked_andThen]
  · exact asked_entities hnodup hids fun _ _ => rfl
  · rintro ⟨entities?, known⟩
    cases entities? with
    | none => rfl
    | some es =>
      dsimp only
      cases (Path.ofParts es (steps.map Prod.fst) weight).orFault .path <;> rfl

/-- **A way that was chosen is followed to its path**, and that is all that
is asked. -/
theorem play_pathAlong_eq (hr : r.Surveyable source) {trace : Trace} {places : List ℕ}
    {steps : Way} (hwalk : r.Walk source places steps target)
    (hleads : trace.Leads source target steps) (hlength : steps.length ≤ trace.length)
    (hnodup : (source :: steps.map Prod.snd).Nodup) (weight : Binary64) :
    (pathAlong trace source target weight).play r.answer =
      ⟨(r.untilMissing (source :: steps.map Prod.snd)).map resolving,
        .ok ((r.pathOf source steps).map (.weighing weight))⟩ := by
  have hids : ∀ id ∈ source :: steps.map Prod.snd,
      r.answer (.entity (.text id)) = .ok (r.entity? id) := fun id hid =>
    hr.answer_entity (hwalk.reaches_of_mem .start hid)
  rw [← asked_pathAlong hleads hlength hnodup hids weight,
    ← play_pathAlong_weighing hleads hlength hids weight]

theorem map_unweighted_weighing (r : Repository) (source : String) (steps : Way)
    (weight : Binary64) :
    ((r.pathOf source steps).map (Path.weighing weight)).map Path.unweighted =
      r.pathOf source steps := by
  rw [Option.map_map]
  exact r.map_weighing_zero_pathOf source steps

/-- From an id to itself there is nothing to expand. -/
theorem play_stay_completes {δ : Type} [LE δ] {measure : Way → δ} (hr : r.Surveyable source)
    (hleast : ∀ steps, measure [] ≤ measure steps) :
    ∃ asked path?, (stay (.text source)).play r.answer = ⟨asked, .ok path?⟩ ∧
      r.Completes measure source source asked path? := by
  have hplay : (stay (.text source)).play r.answer =
      ⟨[resolving source], .ok ((r.entity? source).map fun e => ⟨[e], [], .zero, rfl⟩)⟩ :=
    play_ask_of_ok (hr.answer_entity .start) _
  have hasked : r.untilMissing [source] = [source] := by
    rw [untilMissing, untilMissing, ite_self]
  refine ⟨_, _, hplay, ?_⟩
  have hcompletes : r.Completes measure source source
      ([] ++ (r.untilMissing [source]).map resolving)
      ((r.entity? source).map fun e => ⟨[e], [], .zero, rfl⟩) := by
    refine .along (expands_nil ..) .here (List.nodup_singleton _) (fun _ steps _ => hleast steps) ?_
    rw [Option.map_map]
    exact (r.pathOf_nil source).symm
  rwa [hasked] at hcompletes

/-! ## Breadth first -/

namespace Breadth

variable {goal : String} {bound : Lex (ℕ × List ℕ)} {taken waiting : List Arrival} {s : State}
  {y : Arrival}

/-- The ids that were taken, as far from the source as the walks to them
are long. -/
def distances (taken : List Arrival) : List (String × ℕ) :=
  taken.map fun x => (x.id, x.places.length)

theorem map_fst_distances (taken : List Arrival) :
    (distances taken).map Prod.fst = taken.map Arrival.id := by
  rw [distances, List.map_map]
  rfl

/-- **The first that waits is expanded in order.** -/
theorem Rested.expands (h : Rested r source goal bound taken (y :: waiting) s)
    (hgoal : y.id ≠ goal) (hexpands : r.Expands List.length source goal (distances taken)) :
    r.Expands List.length source goal (distances (taken ++ [y])) := by
  obtain ⟨steps, hfirst, -⟩ := h.firstWalk
  rw [distances, List.map_append]
  refine hexpands.concat ?_ hgoal ⟨⟨_, _, hfirst.1, hfirst.1.length_eq.symm⟩, fun _ _ hwalk => ?_⟩
    (fun x hx => ?_) fun places steps' hwalk => ?_
  · rw [map_fst_distances]
    intro hmem
    obtain ⟨x, hx, hid⟩ := List.mem_map.1 hmem
    exact h.id_ne x hx hid
  · rw [hfirst.1.length_eq]
    exact hfirst.length_le hwalk
  · -- walks to ids that were taken come before, so they are not longer
    obtain ⟨z, hz, rfl⟩ := List.mem_map.1 hx
    have hbefore := (List.pairwise_append.1 h.explored.sorted).2.2 z hz y List.mem_cons_self
    exact length_le_of_rank_le hbefore.le
  · rw [← hwalk.length_eq]
    exact length_le_of_rank_le (h.rank_le hwalk h.missed)

/-- What holds between two turns of what was asked: the ids that were taken
are expanded, in order. -/
def Expanding (r : Repository) (source goal : String) (left : ℕ) (asked : List GraphQuestion)
    (s : State) : Prop :=
  ∃ bound taken waiting, Rested r source goal bound taken waiting s ∧
    taken.length + left = r.extent + 1 ∧
    r.Expands List.length source goal (distances taken) ∧
    asked = (distances taken).map fun x => expanding x.1

theorem expanding_start (r : Repository) (source goal : String) :
    Expanding r source goal (r.extent + 1) [] (start source) :=
  ⟨_, _, _, rested_start r source goal, by simp, expands_nil .., rfl⟩

/-- If the goal is taken the entities along the first walk are asked for. -/
theorem completes_of_arrived (h : Rested r source goal bound taken (y :: waiting) s)
    (hr : r.Surveyable source) (hgoal : y.id = goal)
    (hexpands : r.Expands List.length source goal (distances taken)) :
    ∃ more path?, (turn source (some goal) s).play r.answer = ⟨more, .ok (.finished path?)⟩ ∧
      r.Completes List.length source goal
        ((distances taken).map (fun x => expanding x.1) ++ more) path? := by
  subst hgoal
  obtain ⟨steps, hfirst, hleads⟩ := h.firstWalk
  have hlength : steps.length ≤ s.trace.length :=
    hfirst.1.length_eq ▸ h.explored.length_le_trace (by simp)
  refine ⟨_, _, ?_, .along hexpands hfirst.1 hfirst.nodup
    (fun _ _ hwalk => hfirst.length_le hwalk) (map_unweighted_weighing r source steps .zero)⟩
  rw [play_turn_arrived h rfl, play_pathAlong_eq hr hfirst.1 hleads hlength hfirst.nodup,
    Run.andThen_ok, List.append_nil]

/-- **A turn expands one id more, or ends with what there is to find.** -/
theorem Expanding.play_turn {left : ℕ} {asked : List GraphQuestion}
    (h : Expanding r source goal left asked s) (hr : r.Surveyable source) :
    (∃ more s' left', (turn source (some goal) s).play r.answer = ⟨more, .ok (.again s')⟩ ∧
      Expanding r source goal left' (asked ++ more) s' ∧ left' < left) ∨
    ∃ more path?, (turn source (some goal) s).play r.answer = ⟨more, .ok (.finished path?)⟩ ∧
      r.Completes List.length source goal (asked ++ more) path? := by
  obtain ⟨bound, taken, waiting, hrested, hleft, hexpands, rfl⟩ := h
  cases waiting with
  | nil =>
    have hno : ¬ r.Reaches source goal := fun hreaches => by
      obtain ⟨places, steps, hwalk⟩ := reaches_iff_exists_walk.1 hreaches
      exact hrested.no_walk places steps hwalk
    refine Or.inr ⟨[], none, ?_, ?_⟩
    · rw [turn, hrested.explored.queue]
      rfl
    · rw [List.append_nil]
      exact .nowhere hexpands hno
  | cons y waiting =>
    by_cases hgoal : y.id = goal
    · exact Or.inr (completes_of_arrived hrested hr hgoal hexpands)
    · obtain ⟨new, htake⟩ := hrested.take hgoal
      have hlength := hrested.length_le hr
      simp only [List.length_append, List.length_cons] at hlength
      refine Or.inl ⟨_, _, left - 1, play_turn_of_ne hrested hr hgoal,
        ⟨_, _, _, htake, ?_, hrested.expands hgoal hexpands, ?_⟩, by omega⟩
      · rw [List.length_append, List.length_singleton]
        omega
      · rw [distances, distances, List.map_append, List.map_append]
        rfl

end Breadth

/-- **Breadth first expands ids in the order of their distances**, and then
asks for the entities of the path. -/
theorem play_fewestHops_completes (hr : r.Surveyable source) (target : String) :
    ∃ asked path?, (fewestHops (idBudget r.extent) source (some target)).play r.answer =
      ⟨asked, .ok path?⟩ ∧ r.Completes List.length source target asked path? := by
  unfold fewestHops
  split
  · rename_i htarget
    obtain rfl := Option.some.inj htarget
    exact play_stay_completes hr fun steps => Nat.zero_le _
  · have hbudget : r.extent + 1 < idBudget r.extent := Nat.lt_succ_self _
    exact Dialogue.play_iterate (Breadth.Expanding r source target)
      (r.Completes List.length source target) (fun _ _ _ h => h.play_turn hr) []
      (Breadth.expanding_start r source target) hbudget

/-! ## By weight -/

namespace Weighted

variable {goal : String} {s s' : State} {taken : Waiting}

/-- How much a way weighs. -/
def weigh (steps : Way) : Binary64 := Relationship.weightOf (steps.map Prod.fst)

/-- **The nearest that is new waits at its true distance.** -/
theorem Tight.isDistance (h : Tight r source s) (hsettling : Settling r source s)
    (hnearest : Nearest taken s.frontier) (hnew : taken.id ∉ s.settled) :
    r.IsDistance weigh source taken.id taken.distance := by
  obtain ⟨places, steps, hwalk, hleads, -, -⟩ := hsettling.exists_way hnearest.mem hnew
  have hweight := h.measured.known_of_leads hleads (h.measured.lookup_nearest hnearest hnew)
  exact ⟨⟨places, steps, hwalk, hweight.symm⟩, fun _ _ hwalk' => h.le_weightOf hnearest hnew hwalk'⟩

/-- What is settled is no further away than what waits. -/
theorem Measured.le_of_settled (h : Measured source s) (hsettling : Settling r source s)
    {id : String} (hid : id ∈ s.settled) {d : Binary64} (hd : r.IsDistance weigh source id d)
    {w : Waiting} (hw : w ∈ s.frontier) : d ≤ w.distance := by
  obtain ⟨known, hknown, hle⟩ := h.settled id hid
  obtain ⟨places, steps, hwalk, hleads, -⟩ := hsettling.ways id hid
  have hweight : known = weigh steps := h.known_of_leads hleads hknown
  exact Binary64.le_trans (hweight ▸ hd.least places steps hwalk) (hle w hw)

/-- What holds between two turns of what was asked: the ids that are settled
were expanded, in order. -/
def Expanding (r : Repository) (source goal : String) (asked : List GraphQuestion) (s : State) :
    Prop :=
  Tight r source s ∧ ∃ expanded, r.Expands weigh source goal expanded ∧
    expanded.map Prod.fst = s.settled.reverse ∧ asked = expanded.map fun x => expanding x.1

theorem expanding_start (r : Repository) (source goal : String) :
    Expanding r source goal [] (start source) :=
  ⟨tight_start r source, [], expands_nil .., rfl, rfl⟩

/-- **A turn expands the nearest that is new.** -/
theorem Expanding.again {asked more : List GraphQuestion} (h : Expanding r source goal asked s)
    (hrested : Rested r source goal s) (hturn : Chooses r goal s ⟨more, .ok (.again s')⟩) :
    Expanding r source goal (asked ++ more) s' := by
  obtain ⟨htight, expanded, hexpands, hsettled, rfl⟩ := h
  refine ⟨htight.again hturn, ?_⟩
  cases hturn with
  | passed hnearest hold =>
    -- it was expanded when it was settled, and is not asked for again
    exact ⟨expanded, hexpands, hsettled, List.append_nil _⟩
  | @followed taken hnearest hnew hgoal =>
    have hmem : ∀ {id}, id ∈ expanded.map Prod.fst ↔ id ∈ s.settled := by
      intro id
      rw [hsettled, List.mem_reverse]
    refine ⟨expanded ++ [(taken.id, taken.distance)], ?_, ?_, ?_⟩
    · refine hexpands.concat (mt hmem.1 hnew) hgoal
        (htight.isDistance hrested.settling hnearest hnew) (fun x hx => ?_)
        fun _ _ hwalk => htight.le_weightOf hnearest hrested.missed hwalk
      have hx' : x.1 ∈ s.settled := hmem.1 (List.mem_map_of_mem hx)
      exact htight.measured.le_of_settled hrested.settling hx' (hexpands.distance x hx) hnearest.mem
    · obtain ⟨-, hsame, -⟩ := hrested.settle hnearest.mem hnew hgoal
      rw [hsame, List.map_append, hsettled, List.reverse_cons]
      rfl
    · rw [List.map_append]
      rfl

/-- A choice at least weight, with what was asked until then. -/
theorem Expanding.finished {asked more : List GraphQuestion} {choice : Option (Trace × Waiting)}
    (h : Expanding r source goal asked s) (hrested : Rested r source goal s)
    (hturn : Chooses r goal s ⟨more, .ok (.finished choice)⟩) :
    Lightest r source goal choice ∧ ∃ expanded, r.Expands weigh source goal expanded ∧
      asked ++ more = expanded.map fun x => expanding x.1 := by
  obtain ⟨htight, expanded, hexpands, -, rfl⟩ := h
  refine ⟨htight.finished hrested hturn, expanded, hexpands, ?_⟩
  cases hturn with
  | empty | arrived => exact List.append_nil _

end Weighted

/-- **The search by weight expands ids in the order of their distances**,
and then asks for the entities of the path. -/
theorem play_leastWeight_completes (hr : r.Surveyable source) (target : String) :
    ∃ asked path?, (leastWeight (idBudget r.extent) source (some target)).play r.answer =
      ⟨asked, .ok path?⟩ ∧ r.Completes Weighted.weigh source target asked path? := by
  by_cases htarget : target = source
  · subst htarget
    rw [leastWeight, if_pos rfl]
    exact play_stay_completes hr fun steps => Relationship.le_weightFrom Binary64.zero_le_zero _
  obtain ⟨asked, choice, hplay, hlightest, expanded, hexpands, rfl⟩ :=
    Weighted.play_choose_of_invariant hr target (Weighted.Expanding r source target)
      (fun asked choice => Weighted.Lightest r source target choice ∧
        ∃ expanded, r.Expands Weighted.weigh source target expanded ∧
          asked = expanded.map fun x => expanding x.1)
      (Weighted.expanding_start r source target)
      (fun _ _ _ _ hrested h hturn => h.again hrested hturn)
      (fun _ _ _ _ hrested h hturn => h.finished hrested hturn)
  rw [play_leastWeight_eq htarget, hplay, Run.andThen_ok]
  cases hlightest with
  | nowhere hno =>
    refine ⟨_, none, ?_, .nowhere hexpands hno⟩
    rw [Weighted.pathTo, play_done, List.append_nil]
  | @along trace taken places steps htaken hwalk hleads hnodup hlength hweight hleast =>
    subst htaken
    have hshort : ∀ places' steps', r.Walk source places' steps' taken.id →
        Weighted.weigh steps ≤ Weighted.weigh steps' := by
      rw [hweight] at hleast
      exact hleast
    refine ⟨_, _, ?_, .along hexpands hwalk hnodup hshort
      (map_unweighted_weighing r source steps taken.distance)⟩
    rw [Weighted.pathTo, play_pathAlong_eq hr hwalk hleads hlength hnodup]

end Search

end KnowledgeGraph
