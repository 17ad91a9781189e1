import KnowledgeGraph.Proofs.Graph.Extent
import KnowledgeGraph.Proofs.Number.Order
import KnowledgeGraph.Proofs.Search.Breadth
/-!
# Weights that are all the same

Where all relationships weigh the same, the search for the least weight
is the search for the fewest relationships: seen without its distances
(`Weighted.breadth`), each of its turns is one of the other search. For
its frontier then stays in the order in which ids came (`Level.sorted`),
and no way found later is lighter than the first (`Level.known`). Nothing
is assumed of the weight: it may be zero, or infinite, or so great that
sums of it do not grow.
-/

namespace KnowledgeGraph.Search

namespace Weighted

open Repository Dialogue

/-- A search by weight as a search without weights. -/
def breadth (s : State) : Breadth.State :=
  ⟨s.frontier.map Waiting.id, s.distances.map Prod.fst, s.trace⟩

/-- What holds while all relationships weigh the same: whatever waits is
at most one relationship further than what was settled last, and comes in
the order of its turns. -/
structure Level (r : Repository) (source : String) (weight settledAt : Binary64) (s : State) :
    Prop where
  nonneg : .zero ≤ settledAt
  sorted : s.frontier.Pairwise fun x y => x.distance ≤ y.distance ∧ x.turn < y.turn
  turns : ∀ x ∈ s.frontier, x.turn < s.turns
  near : ∀ x ∈ s.frontier, settledAt ≤ x.distance ∧ x.distance ≤ settledAt + weight
  known : ∀ entry ∈ s.distances, entry.2 ≤ settledAt + weight
  reached : ∀ id, id ∈ s.distances.map Prod.fst ↔ id ∈ s.settled ∨ id ∈ s.frontier.map Waiting.id
  nodup : (s.frontier.map Waiting.id).Nodup
  unsettled : ∀ x ∈ s.frontier, x.id ∉ s.settled
  reaches : ∀ x ∈ s.frontier, r.Reaches source x.id

variable {r : Repository} {source : String} {weight settledAt : Binary64} {s : State}

/-! ## Following relationships -/

namespace Level

variable {id next : String} {rel : Relationship}

/-- A way to an id that is known is no lighter. -/
theorem improves_eq_false (h : Level r source weight settledAt s) (hpos : .zero ≤ weight)
    (hweight : weight ≤ rel.weight) (hknown : next ∈ s.distances.map Prod.fst) :
    improves s next (settledAt + rel.weight) = false := by
  unfold improves
  cases hlookup : s.distances.lookup next with
  | none => exact absurd hknown (lookup_eq_none_iff.1 hlookup)
  | some known =>
    have hle : known ≤ settledAt + rel.weight := by
      refine Binary64.le_trans (h.known (next, known) (mem_of_lookup hlookup)) ?_
      exact Binary64.add_le_add h.nonneg hpos (Binary64.le_refl_of_nonneg h.nonneg) hweight
    exact decide_eq_false (Binary64.not_lt_of_le hle)

/-- A new id comes to the end of the frontier. -/
theorem arrive (h : Level r source weight settledAt s) (hpos : .zero ≤ weight)
    (hweight : rel.weight.numEq weight) (hnew : next ∉ s.distances.map Prod.fst)
    (hnext : r.Reaches source next) (id : String) :
    Level r source weight settledAt
      { s with
        distances := (next, settledAt + rel.weight) :: s.distances
        trace := (next, (id, rel)) :: s.trace
        frontier := s.frontier ++ [⟨settledAt + rel.weight, s.turns, next⟩]
        turns := s.turns + 1 } := by
  obtain ⟨hle, hge⟩ := Binary64.le_of_numEq hweight
  have hself := Binary64.le_refl_of_nonneg h.nonneg
  have hceiling : settledAt + rel.weight ≤ settledAt + weight :=
    Binary64.add_le_add h.nonneg rel.weight_nonneg hself hle
  have hfloor : settledAt + weight ≤ settledAt + rel.weight :=
    Binary64.add_le_add h.nonneg hpos hself hge
  have hunknown := not_or.1 (mt (h.reached next).2 hnew)
  constructor
  case nonneg => exact h.nonneg
  case sorted =>
    refine List.pairwise_append.2 ⟨h.sorted, List.pairwise_singleton _ _, fun x hx y hy => ?_⟩
    obtain rfl := List.mem_singleton.1 hy
    exact ⟨Binary64.le_trans (h.near x hx).2 hfloor, h.turns x hx⟩
  case turns =>
    intro x hx
    rcases List.mem_append.1 hx with hx | hx
    · exact (h.turns x hx).trans (Nat.lt_succ_self _)
    · obtain rfl := List.mem_singleton.1 hx
      exact Nat.lt_succ_self _
  case near =>
    intro x hx
    rcases List.mem_append.1 hx with hx | hx
    · exact h.near x hx
    · obtain rfl := List.mem_singleton.1 hx
      exact ⟨Binary64.le_add h.nonneg rel.weight_nonneg, hceiling⟩
  case known =>
    intro entry hentry
    rcases List.mem_cons.1 hentry with rfl | hentry
    · exact hceiling
    · exact h.known entry hentry
  case reached =>
    intro other
    simp only [List.map_cons, List.map_append, List.map_nil, List.mem_cons, List.mem_append,
      List.not_mem_nil, or_false, h.reached other]
    tauto
  case nodup =>
    rw [List.map_append, List.map_singleton, List.nodup_append']
    exact ⟨h.nodup, List.nodup_singleton _, List.disjoint_singleton.2 hunknown.2⟩
  case unsettled =>
    intro x hx
    rcases List.mem_append.1 hx with hx | hx
    · exact h.unsettled x hx
    · obtain rfl := List.mem_singleton.1 hx
      exact hunknown.1
  case reaches =>
    intro x hx
    rcases List.mem_append.1 hx with hx | hx
    · exact h.reaches x hx
    · obtain rfl := List.mem_singleton.1 hx
      exact hnext

/-- **To follow a relationship is the same in both searches.** -/
theorem relax (h : Level r source weight settledAt s) (hpos : .zero ≤ weight)
    (hweight : rel.weight.numEq weight) (hid : r.Reaches source id) (hrel : rel ∈ r.links id) :
    Level r source weight settledAt (Weighted.relax id settledAt s rel) ∧
      breadth (Weighted.relax id settledAt s rel) = Breadth.discover id (breadth s) rel := by
  unfold Weighted.relax Breadth.discover
  cases hto : rel.neighborOf id with
  | none => exact ⟨h, rfl⟩
  | some next =>
    dsimp only
    by_cases hknown : next ∈ s.distances.map Prod.fst
    · have hseen : (breadth s).reached.contains next = true := List.contains_iff_mem.2 hknown
      rw [if_pos hseen, h.improves_eq_false hpos (Binary64.le_of_numEq hweight).2 hknown]
      split <;> exact ⟨h, rfl⟩
    · have hunseen : ¬ (breadth s).reached.contains next = true := fun hc =>
        hknown (List.contains_iff_mem.1 hc)
      have hunsettled : ¬ s.settled.contains next = true := fun hc =>
        hknown ((h.reached next).2 (Or.inl (List.contains_iff_mem.1 hc)))
      have himproves : improves s next (settledAt + rel.weight) = true := by
        rw [improves, lookup_eq_none_iff.2 hknown]
      rw [if_neg hunseen, if_neg hunsettled, if_pos himproves]
      refine ⟨h.arrive hpos hweight hknown (hid.follow hrel hto) id, ?_⟩
      simp [breadth]

/-- And so for all relationships of an id. -/
theorem relax_all (h : Level r source weight settledAt s) (hpos : .zero ≤ weight)
    (hid : r.Reaches source id) {rels : List Relationship}
    (hrels : ∀ rel ∈ rels, rel ∈ r.links id ∧ rel.weight.numEq weight) :
    Level r source weight settledAt (rels.foldl (Weighted.relax id settledAt) s) ∧
      breadth (rels.foldl (Weighted.relax id settledAt) s) =
        rels.foldl (Breadth.discover id) (breadth s) := by
  induction rels generalizing s with
  | nil => exact ⟨h, rfl⟩
  | cons rel rels ih =>
    obtain ⟨hrel, hweight⟩ := hrels rel List.mem_cons_self
    obtain ⟨hlevel, hsame⟩ := h.relax hpos hweight hid hrel
    rw [List.foldl_cons, List.foldl_cons, ← hsame]
    exact ih hlevel fun other hother => hrels other (List.mem_cons_of_mem _ hother)

end Level

/-! ## Turns -/

/-- Of those that come in order the first is taken. -/
theorem nearest_eq {first : Waiting} {others : List Waiting}
    (h : ∀ x ∈ others, first.distance ≤ x.distance ∧ first.turn < x.turn) :
    nearest first others = first := by
  induction others with
  | nil => rfl
  | cons x others ih =>
    obtain ⟨hdistance, hturn⟩ := h x List.mem_cons_self
    have hbefore : x.before first = false := by
      have hlt := Binary64.not_lt_of_le hdistance
      have hturn' : ¬ x.turn < first.turn := by omega
      simp [Waiting.before, hlt, hturn']
    rw [nearest, hbefore]
    exact ih fun y hy => h y (List.mem_cons_of_mem _ hy)

variable {first : Waiting} {others : List Waiting}

/-- The first that waits is settled, and the search goes on from there. -/
theorem Level.settle (h : Level r source weight settledAt s) (hpos : .zero ≤ weight)
    (hfrontier : s.frontier = first :: others) :
    Level r source weight first.distance
      { s with frontier := others, settled := first.id :: s.settled } := by
  obtain ⟨nonneg, sorted, turns, near, known, reached, nodup, unsettled, reaches⟩ := h
  rw [hfrontier] at sorted turns near nodup unsettled reaches
  obtain ⟨hsorted, sorted⟩ := List.pairwise_cons.1 sorted
  obtain ⟨hnodup, nodup⟩ := List.nodup_cons.1 nodup
  obtain ⟨hfirst, -⟩ := near first List.mem_cons_self
  -- what was one relationship further than before is so from the new one
  have hfurther : settledAt + weight ≤ first.distance + weight :=
    Binary64.add_le_add nonneg hpos hfirst (Binary64.le_refl_of_nonneg hpos)
  constructor
  case nonneg => exact Binary64.le_trans nonneg hfirst
  case sorted => exact sorted
  case turns => exact fun x hx => turns x (List.mem_cons_of_mem _ hx)
  case near =>
    intro x hx
    exact ⟨(hsorted x hx).1, Binary64.le_trans (near x (List.mem_cons_of_mem _ hx)).2 hfurther⟩
  case known => exact fun entry hentry => Binary64.le_trans (known entry hentry) hfurther
  case reached =>
    intro id
    rw [reached id, hfrontier]
    simp only [List.map_cons, List.mem_cons]
    tauto
  case nodup => exact nodup
  case unsettled =>
    intro x hx hsettled
    rcases List.mem_cons.1 hsettled with heq | hsettled
    · exact hnodup (heq ▸ List.mem_map_of_mem hx)
    · exact unsettled x (List.mem_cons_of_mem _ hx) hsettled
  case reaches => exact fun x hx => reaches x (List.mem_cons_of_mem _ hx)

/-- Only the source waits at first. -/
theorem level_start (r : Repository) (source : String) (hpos : .zero ≤ weight) :
    Level r source weight .zero (start source) := by
  have hzero : Binary64.zero ≤ .zero := Binary64.zero_le_zero
  have hnear : Binary64.zero ≤ .zero + weight := Binary64.le_add hzero hpos
  refine ⟨hzero, List.pairwise_singleton _ _, ?_, ?_, ?_, ?_, List.nodup_singleton _, ?_, ?_⟩
  · simp [start]
  · simpa [start] using ⟨hzero, hnear⟩
  · simpa [start] using hnear
  · simp [start]
  · simp [start]
  · simpa [start] using Reaches.start

/-- A turn whose state is given by the first that waits and the others. -/
theorem turn_of_level (h : Level r source weight settledAt s) (goal : Option String)
    (hfrontier : s.frontier = first :: others) :
    turn source goal s =
      .poll (if goal = some first.id then
          (pathAlong s.trace source first.id first.distance).bind fun path? =>
            .done (.finished path?)
        else
          (GraphDialogue.outgoing (.text first.id)).bind fun rels =>
            .done (.again (rels.foldl (Weighted.relax first.id first.distance)
              { s with frontier := others, settled := first.id :: s.settled }))) := by
  have hsorted := h.sorted
  have hunsettled := h.unsettled first (by simp [hfrontier])
  rw [hfrontier] at hsorted
  have hnearest := nearest_eq (List.pairwise_cons.1 hsorted).1
  unfold turn
  rw [hfrontier]
  dsimp only
  rw [hnearest, List.erase_cons_head, if_neg (fun hc => hunsettled (List.contains_iff_mem.1 hc))]

/-- **Turns are the same in both searches**, as long as relationships
weigh the same. -/
theorem Level.play_turn (h : Level r source weight settledAt s) (hpos : .zero ≤ weight)
    (hr : r.Surveyable source)
    (hsame : ∀ id, r.Reaches source id → ∀ rel ∈ r.links id, rel.weight.numEq weight)
    (goal : Option String) :
    ((turn source goal s).play r.answer).map (Turn.map breadth (Option.map Path.unweighted)) =
        (Breadth.turn source goal (breadth s)).play r.answer ∧
      ∀ s', ((turn source goal s).play r.answer).outcome = .ok (.again s') →
        ∃ settledAt', Level r source weight settledAt' s' := by
  cases hfrontier : s.frontier with
  | nil =>
    have hturn : turn source goal s = .done (.finished none) := by rw [turn, hfrontier]
    have hturn' : Breadth.turn source goal (breadth s) = .done (.finished none) := by
      rw [Breadth.turn, breadth, hfrontier]
      rfl
    rw [hturn, hturn']
    exact ⟨rfl, fun s' hs' => by cases hs'⟩
  | cons first others =>
    rw [turn_of_level h goal hfrontier]
    unfold Breadth.turn
    have hqueue : (breadth s).queue = first.id :: others.map Waiting.id := by
      rw [breadth, hfrontier]
      rfl
    rw [hqueue]
    dsimp only
    rw [play_poll, play_poll]
    by_cases hgoal : goal = some first.id
    · -- the way is the same, with another weight
      rw [if_pos hgoal, if_pos hgoal, play_bind, play_bind]
      have hway := play_pathAlong_unweighted r.answer s.trace source first.id first.distance
      change _ = (_ : Run _ _).andThen _ ∧ _
      rw [show (breadth s).trace = s.trace from rfl, ← hway]
      cases (pathAlong s.trace source first.id first.distance).play r.answer with
      | mk asked outcome =>
        cases outcome with
        | error fault => exact ⟨rfl, fun s' hs' => by cases hs'⟩
        | ok path? => exact ⟨rfl, fun s' hs' => by cases hs'⟩
    · rw [if_neg hgoal, if_neg hgoal]
      have hreaches := h.reaches first (by simp [hfrontier])
      have hlinks := hr.answer_links hreaches
      have hsettled := h.settle hpos hfrontier
      obtain ⟨hlevel, hdiscover⟩ := hsettled.relax_all hpos hreaches fun rel hrel =>
        ⟨hrel, hsame first.id hreaches rel hrel⟩
      simp only [GraphDialogue.outgoing, Dialogue.bind, play_ask_of_ok hlinks, play_done]
      refine ⟨?_, fun s' hs' => ?_⟩
      · rw [Run.map_ok, Turn.map, hdiscover]
        rfl
      · obtain rfl := Turn.again.inj (Except.ok.inj hs')
        exact ⟨_, hlevel⟩

end Weighted

open Dialogue in
/-- **With weights that are all the same the search for the least weight
is the search for the fewest relationships**: it asks the same questions
in the same order, and finds the same path but for its weight. -/
theorem play_leastWeight {r : Repository} {source : String} (hr : r.Surveyable source)
    {weight : Binary64} (hpos : .zero ≤ weight)
    (hsame : ∀ id, r.Reaches source id → ∀ rel ∈ r.links id, rel.weight.numEq weight)
    (goal : Option String) (budget : ℕ) :
    ((leastWeight budget source goal).play r.answer).map (Option.map Path.unweighted) =
      (fewestHops budget source goal).play r.answer := by
  unfold leastWeight fewestHops
  split
  · unfold stay
    rw [play_bind, Run.map_andThen]
    congr
    funext entity?
    cases entity? <;> rfl
  · exact play_iterate_map (fun s => ∃ settledAt, Weighted.Level r source weight settledAt s)
      (fun s ⟨_, h⟩ => h.play_turn hpos hr hsame goal) budget
      ⟨.zero, Weighted.level_start r source hpos⟩

/-- **Searches agree where weights do.** If all relationships that can be
followed from a source weigh the same, the search for the least weight
and that for the fewest relationships ask the same questions in the same
order, and both find no path, or paths that are equal but for their
weight. -/
theorem leastWeight_eq_fewestHops {r : Repository} {source : String} (hr : r.Surveyable source)
    {weight : Binary64} (hpos : .zero ≤ weight)
    (hsame : ∀ id, r.Reaches source id → ∀ rel ∈ r.links id, rel.weight.numEq weight)
    (target : String) :
    let light := r.leastWeight none (.text source) (.text target)
    let short := r.fewestHops none (.text source) (.text target)
    light.asked = short.asked ∧ ∃ path?,
      light.outcome = .ok path? ∧ short.outcome = .ok (path?.map Path.unweighted) := by
  intro light short
  have hlight : light = (leastWeight (idBudget r.extent) source (some target)).play r.answer := by
    rw [← r.run_none, ← leastWeightBetween_text]
    rfl
  have hshort : short = (fewestHops (idBudget r.extent) source (some target)).play r.answer := by
    rw [← r.run_none, ← fewestHopsBetween_text]
    rfl
  have hmap := play_leastWeight hr hpos hsame (some target) (idBudget r.extent)
  rw [← hlight, ← hshort] at hmap
  obtain ⟨path?, houtcome, -⟩ := play_fewestHops hr target
  rw [← hshort] at houtcome
  have hasked : light.asked = short.asked := by
    rw [← hmap]
    rfl
  refine ⟨hasked, ?_⟩
  have hmapped : light.outcome.map (Option.map Path.unweighted) = .ok path? := by
    rw [← houtcome, ← hmap]
    rfl
  cases hfound : light.outcome with
  | error fault =>
    rw [hfound] at hmapped
    cases hmapped
  | ok found =>
    rw [hfound] at hmapped
    exact ⟨found, rfl, houtcome.trans hmapped.symm⟩

/-- Two equally short paths in a listed graph, one of them by either of two
relationships. -/
theorem leastWeight_eq_fewestHops_tied :
    let label : TypeLabel := ⟨"Node", by decide⟩
    let weight := Relationship.defaultWeight.1
    let link (id source target : String) : Relationship :=
      ⟨id, label, source, target, [], weight, true, none, Relationship.defaultWeight.2⟩
    let graph : Listing :=
      ⟨[⟨"a", label, [], none⟩, ⟨"b", label, [], none⟩, ⟨"c", label, [], none⟩,
          ⟨"d", label, [], none⟩],
        [("a", [link "1" "a" "b", link "2" "a" "c"]), ("b", [link "3" "b" "d", link "4" "b" "d"]),
          ("c", [link "5" "c" "d"])]⟩
    let r := graph.repository
    let light := r.leastWeight none (.text "a") (.text "d")
    let short := r.fewestHops none (.text "a") (.text "d")
    r.Surveyable "a" ∧ .zero ≤ weight ∧
      (∀ id, r.Reaches "a" id → ∀ rel ∈ r.links id, rel.weight.numEq weight) ∧
      light.asked = short.asked ∧ ∃ path?,
        light.outcome = .ok path? ∧ short.outcome = .ok (path?.map Path.unweighted) := by
  intro label weight link graph r light short
  have hr : r.Surveyable "a" := graph.surveyable "a"
  have hpos : .zero ≤ weight := Relationship.defaultWeight.2
  have hsame : ∀ id, r.Reaches "a" id → ∀ rel ∈ r.links id, rel.weight.numEq weight := by
    intro id _ rel hrel
    have hself : weight.numEq weight := by decide +kernel
    have hmem := Listing.mem_of_mem_links hrel
    simp only [graph, List.flatMap_cons, List.flatMap_nil, List.cons_append, List.nil_append,
      List.append_nil, List.mem_cons, List.not_mem_nil, or_false] at hmem
    have hweight : rel.weight = weight := by
      rcases hmem with rfl | rfl | rfl | rfl | rfl <;> dsimp only [link]
    rw [hweight]
    exact hself
  exact ⟨hr, hpos, hsame, leastWeight_eq_fewestHops hr hpos hsame "d"⟩

end KnowledgeGraph.Search
