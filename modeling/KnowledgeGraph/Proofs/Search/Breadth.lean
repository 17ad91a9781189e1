import KnowledgeGraph.Proofs.Search.Retracing
/-!
# Breadth first, by the order of walks

A search for the fewest relationships follows them in the order of the
walks that take them last, so ids are reached in that order and each by
the first of all walks to it. `Explored` says so while relationships are
followed, all those before some bound, and `Explored.discover` raises the
bound by one relationship. Between two turns (`Rested`) the bound stands
between the ids taken and those waiting.

So the path found to a goal is the one along the first walk there, and
none is found only if no walk leads there (`fewestHops_spec`).
-/

namespace KnowledgeGraph.Search

namespace Breadth

open Repository Dialogue

/-- An id that was reached, by a walk told by its places. -/
structure Arrival where
  id : String
  places : List ℕ

/-- What a search knows once all relationships before some bound are
followed. -/
structure Explored (r : Repository) (source : String) (bound : Lex (ℕ × List ℕ))
    (taken waiting : List Arrival) (s : State) : Prop where
  queue : s.queue = waiting.map Arrival.id
  reached : s.reached = ((taken ++ waiting).map Arrival.id).reverse
  remembered : s.trace.map Prod.fst ++ [source] = s.reached
  nodup : ((taken ++ waiting).map Arrival.id).Nodup
  sorted : (taken ++ waiting).Pairwise fun x y => rank x.places < rank y.places
  short : ∀ x ∈ taken ++ waiting, x.places.length < (taken ++ waiting).length
  below : ∀ x ∈ taken ++ waiting, rank x.places < bound
  ways : ∀ x ∈ taken ++ waiting, ∃ steps,
    r.Walk source x.places steps x.id ∧ s.trace.Leads source x.id steps
  followed : ∀ x ∈ taken ++ waiting, ∀ i rel next, rank (x.places ++ [i]) < bound →
    (r.links x.id)[i]? = some rel → rel.neighborOf x.id = some next →
    ∃ y ∈ taken ++ waiting, y.id = next ∧ rank y.places ≤ rank (x.places ++ [i])

namespace Explored

variable {r : Repository} {source : String} {bound : Lex (ℕ × List ℕ)}
  {taken waiting : List Arrival} {s : State}

theorem mem_reached (h : Explored r source bound taken waiting s) {id : String} :
    id ∈ s.reached ↔ ∃ x ∈ taken ++ waiting, x.id = id := by
  rw [h.reached, List.mem_reverse, List.mem_map]

theorem source_mem_reached (h : Explored r source bound taken waiting s) : source ∈ s.reached := by
  rw [← h.remembered]
  exact List.mem_append_right _ List.mem_cons_self

/-- Nothing is remembered of what was not reached. -/
theorem lookup_trace (h : Explored r source bound taken waiting s) {id : String}
    (hid : id ∉ s.reached) : s.trace.lookup id = none := by
  rw [lookup_eq_none_iff]
  rw [← h.remembered] at hid
  exact fun hmem => hid (List.mem_append_left _ hmem)

/-- The trace has room for every walk there. -/
theorem length_le_trace (h : Explored r source bound taken waiting s) {x : Arrival}
    (hx : x ∈ taken ++ waiting) : x.places.length ≤ s.trace.length := by
  have hshort := h.short x hx
  have hremembered := congrArg List.length h.remembered
  rw [h.reached] at hremembered
  simp only [List.length_append, List.length_map, List.length_reverse, List.length_singleton]
    at hremembered hshort
  omega

/-- Each id is reached by one walk. -/
theorem eq_of_places_eq (h : Explored r source bound taken waiting s) {x y : Arrival}
    (hx : x ∈ taken ++ waiting) (hy : y ∈ taken ++ waiting) (heq : x.places = y.places) :
    x = y := by
  obtain ⟨steps, hwalk, -⟩ := h.ways x hx
  obtain ⟨steps', hwalk', -⟩ := h.ways y hy
  rw [heq] at hwalk
  obtain ⟨-, hid⟩ := hwalk.unique hwalk'
  cases x
  cases y
  simp_all

variable {y : Arrival} {k : ℕ} {rel : Relationship}

/-- Whatever the relationship at the bound leads to, those before it stay
followed. -/
theorem followed_succ (h : Explored r source (rank (y.places ++ [k])) taken waiting s)
    (hy : y ∈ taken) (hrel : (r.links y.id)[k]? = some rel) {found : List Arrival}
    (hold : ∀ x ∈ taken ++ waiting, x ∈ found)
    (hfound : ∀ x ∈ found, x ∈ taken ++ waiting ∨ x.places = y.places ++ [k])
    (hnext : ∀ next, rel.neighborOf y.id = some next →
      ∃ x ∈ found, x.id = next ∧ rank x.places ≤ rank (y.places ++ [k])) :
    ∀ x ∈ found, ∀ i rel next, rank (x.places ++ [i]) < rank (y.places ++ [k + 1]) →
      (r.links x.id)[i]? = some rel → rel.neighborOf x.id = some next →
      ∃ z ∈ found, z.id = next ∧ rank z.places ≤ rank (x.places ++ [i]) := by
  intro x hx i rel' next hlt hlink hto
  have hle := rank_concat_le_of_lt_succ hlt
  rcases hfound x hx with hx | hplaces
  · rcases hle.lt_or_eq with hlt' | heq
    · obtain ⟨z, hz, hid, hrank⟩ := h.followed x hx i rel' next hlt' hlink hto
      exact ⟨z, hold z hz, hid, hrank⟩
    · -- it is the relationship at the bound itself
      obtain ⟨hplaces, hi⟩ := List.append_inj' (rank_injective heq) rfl
      obtain rfl := h.eq_of_places_eq hx (List.mem_append_left _ hy) hplaces
      obtain rfl : i = k := by simpa using hi
      obtain rfl := Option.some.inj (hlink.symm.trans hrel)
      exact hnext next hto
  · -- what was just reached has followed nothing
    have hfar : rank (y.places ++ [k]) < rank (x.places ++ [i]) := by
      rw [← hplaces]
      exact rank_lt_rank_concat x.places i
    exact absurd hle (not_le.2 hfar)

/-- A relationship is followed to where the search has been. -/
theorem revisit (h : Explored r source (rank (y.places ++ [k])) taken waiting s) (hy : y ∈ taken)
    (hrel : (r.links y.id)[k]? = some rel)
    (hnext : ∀ next, rel.neighborOf y.id = some next → next ∈ s.reached) :
    Explored r source (rank (y.places ++ [k + 1])) taken waiting s where
  queue := h.queue
  reached := h.reached
  remembered := h.remembered
  nodup := h.nodup
  sorted := h.sorted
  short := h.short
  below x hx := (h.below x hx).trans (rank_concat_lt_of_lt y.places (Nat.lt_succ_self k))
  ways := h.ways
  followed := by
    refine h.followed_succ hy hrel (fun x hx => hx) (fun x hx => Or.inl hx) fun next hto => ?_
    obtain ⟨x, hx, hid⟩ := h.mem_reached.1 (hnext next hto)
    exact ⟨x, hx, hid, (h.below x hx).le⟩

/-- A relationship is followed to a new id. -/
theorem arrive (h : Explored r source (rank (y.places ++ [k])) taken waiting s) (hy : y ∈ taken)
    (hrel : (r.links y.id)[k]? = some rel) {next : String} (hto : rel.neighborOf y.id = some next)
    (hnew : next ∉ s.reached) :
    Explored r source (rank (y.places ++ [k + 1])) taken (waiting ++ [⟨next, y.places ++ [k]⟩])
      ⟨s.queue ++ [next], next :: s.reached, (next, (y.id, rel)) :: s.trace⟩ := by
  have hy' : y ∈ taken ++ waiting := List.mem_append_left _ hy
  have hraise := rank_concat_lt_of_lt y.places (Nat.lt_succ_self k)
  have hmem : ∀ x, x ∈ taken ++ (waiting ++ [⟨next, y.places ++ [k]⟩]) ↔
      x ∈ taken ++ waiting ∨ x = ⟨next, y.places ++ [k]⟩ := fun x => by
    rw [← List.append_assoc, List.mem_append, List.mem_singleton]
  have hlength : (taken ++ (waiting ++ [Arrival.mk next (y.places ++ [k])])).length =
      (taken ++ waiting).length + 1 := by
    rw [← List.append_assoc, List.length_append, List.length_singleton]
  constructor
  case queue => rw [h.queue, List.map_append]; rfl
  case reached => rw [h.reached]; simp
  case remembered => rw [← h.remembered]; rfl
  case nodup =>
    rw [← List.append_assoc, List.map_append, List.nodup_append']
    refine ⟨h.nodup, List.nodup_singleton _, ?_⟩
    rw [List.map_singleton, List.disjoint_singleton]
    rwa [h.reached, List.mem_reverse] at hnew
  case sorted =>
    rw [← List.append_assoc, List.pairwise_append]
    refine ⟨h.sorted, List.pairwise_singleton _ _, fun x hx z hz => ?_⟩
    obtain rfl := List.mem_singleton.1 hz
    exact h.below x hx
  case short =>
    intro x hx
    rw [hlength]
    rcases (hmem x).1 hx with hx | rfl
    · exact (h.short x hx).trans (Nat.lt_succ_self _)
    · have := h.short y hy'
      simp only [List.length_append, List.length_singleton] at this ⊢
      omega
  case below =>
    intro x hx
    rcases (hmem x).1 hx with hx | rfl
    · exact (h.below x hx).trans hraise
    · exact hraise
  case ways =>
    intro x hx
    have hlookup := h.lookup_trace hnew
    rcases (hmem x).1 hx with hx | rfl
    · obtain ⟨steps, hwalk, hleads⟩ := h.ways x hx
      exact ⟨steps, hwalk, hleads.cons hlookup _⟩
    · obtain ⟨steps, hwalk, hleads⟩ := h.ways y hy'
      have hne : next ≠ source := fun heq => hnew (heq ▸ h.source_mem_reached)
      refine ⟨_, hwalk.concat hrel hto, .onward hne ?_ (hleads.cons hlookup _)⟩
      rw [List.lookup_cons_self]
  case followed =>
    refine h.followed_succ hy hrel (fun x hx => (hmem x).2 (Or.inl hx)) (fun x hx => ?_)
      fun next' hto' => ?_
    · rcases (hmem x).1 hx with hx | rfl
      · exact Or.inl hx
      · exact Or.inr rfl
    · obtain rfl := Option.some.inj (hto.symm.trans hto')
      exact ⟨_, (hmem _).2 (Or.inr rfl), rfl, le_rfl⟩

/-- **One relationship more is followed.** -/
theorem discover (h : Explored r source (rank (y.places ++ [k])) taken waiting s) (hy : y ∈ taken)
    (hrel : (r.links y.id)[k]? = some rel) :
    ∃ new, Explored r source (rank (y.places ++ [k + 1])) taken (waiting ++ new)
      (Breadth.discover y.id s rel) := by
  unfold Breadth.discover
  cases hto : rel.neighborOf y.id with
  | none =>
    refine ⟨[], ?_⟩
    rw [List.append_nil]
    exact h.revisit hy hrel fun next hnext => by rw [hto] at hnext; cases hnext
  | some next =>
    dsimp only
    split
    · rename_i hmem
      refine ⟨[], ?_⟩
      rw [List.append_nil]
      refine h.revisit hy hrel fun next' hnext => ?_
      obtain rfl := Option.some.inj (hto.symm.trans hnext)
      exact List.contains_iff_mem.1 hmem
    · rename_i hmem
      exact ⟨[⟨next, y.places ++ [k]⟩],
        h.arrive hy hrel hto fun hin => hmem (List.contains_iff_mem.2 hin)⟩

/-- All relationships of an id are followed. -/
theorem discover_all (h : Explored r source (rank (y.places ++ [0])) taken waiting s)
    (hy : y ∈ taken) :
    ∃ new, Explored r source (rank (y.places ++ [(r.links y.id).length])) taken (waiting ++ new)
      ((r.links y.id).foldl (Breadth.discover y.id) s) := by
  -- after any number of them, those that are left
  suffices ∀ rest k waiting s, (r.links y.id).drop k = rest →
      k + rest.length = (r.links y.id).length →
      Explored r source (rank (y.places ++ [k])) taken waiting s →
      ∃ new, Explored r source (rank (y.places ++ [(r.links y.id).length])) taken (waiting ++ new)
        (rest.foldl (Breadth.discover y.id) s) from this _ 0 waiting s rfl (by simp) h
  intro rest
  induction rest with
  | nil =>
    intro k waiting s hdrop hlength h
    refine ⟨[], ?_⟩
    rw [List.append_nil, ← hlength]
    exact h
  | cons rel rest ih =>
    intro k waiting s hdrop hlength h
    have hrel : (r.links y.id)[k]? = some rel := by
      rw [← List.head?_drop, hdrop, List.head?_cons]
    obtain ⟨first, hfirst⟩ := h.discover hy hrel
    have hdrop' : (r.links y.id).drop (k + 1) = rest := by
      rw [← List.tail_drop, hdrop, List.tail_cons]
    obtain ⟨others, hothers⟩ := ih (k + 1) _ _ hdrop' (by simp at hlength; omega) hfirst
    exact ⟨first ++ others, by rw [← List.append_assoc]; exact hothers⟩

end Explored

/-! ## Between turns -/

/-- What a search knows between two turns: every relationship of the ids
taken is followed, none of those waiting, and the goal was not taken. -/
structure Rested (r : Repository) (source goal : String) (bound : Lex (ℕ × List ℕ))
    (taken waiting : List Arrival) (s : State) : Prop where
  explored : Explored r source bound taken waiting s
  begun : ⟨source, []⟩ ∈ taken ++ waiting
  behind : ∀ x ∈ taken, ∀ i < (r.links x.id).length, rank (x.places ++ [i]) < bound
  ahead : ∀ x ∈ waiting, bound ≤ rank (x.places ++ [0])
  missed : ∀ x ∈ taken, x.id ≠ goal

variable {r : Repository} {source goal : String} {bound : Lex (ℕ × List ℕ)}
  {taken waiting : List Arrival} {s : State} {y : Arrival}

/-- Only the source waits at first. -/
theorem rested_start (r : Repository) (source goal : String) :
    Rested r source goal (rank [0]) [] [⟨source, []⟩] (start source) := by
  have hfirst : ∀ i, rank [0] ≤ rank [i] := fun i =>
    rank_concat_le_rank_concat (p := []) le_rfl (Nat.zero_le i)
  refine ⟨⟨rfl, rfl, rfl, by simp, by simp, by simp, ?_, ?_, ?_⟩, by simp, by simp, ?_, by simp⟩
  · intro x hx
    obtain rfl := List.mem_singleton.1 hx
    exact rank_lt_rank_concat [] 0
  · intro x hx
    obtain rfl := List.mem_singleton.1 hx
    exact ⟨[], .here, .here⟩
  · intro x hx i rel next hlt
    obtain rfl := List.mem_singleton.1 hx
    exact absurd hlt (not_lt.2 (hfirst i))
  · intro x hx
    obtain rfl := List.mem_singleton.1 hx
    exact hfirst 0

namespace Rested

/-- A walk that comes before all those to ids that wait leads to an id
that was taken, and not by a later walk. -/
theorem exists_taken (h : Rested r source goal bound taken waiting s) {places : List ℕ}
    {steps : Way} {last : String} (hwalk : r.Walk source places steps last)
    (hfirst : ∀ x ∈ waiting, rank places < rank x.places) :
    ∃ x ∈ taken, x.id = last ∧ rank x.places ≤ rank places := by
  induction places using List.reverseRecOn generalizing steps last with
  | nil =>
    cases hwalk with
    | here =>
      refine ⟨⟨source, []⟩, ?_, rfl, le_rfl⟩
      rcases List.mem_append.1 h.begun with htaken | hwaiting
      · exact htaken
      · exact absurd (hfirst _ hwaiting) (lt_irrefl _)
  | append_singleton places i ih =>
    obtain ⟨steps', origin, rel, hbefore, hrel, hto⟩ := hwalk.of_concat
    obtain ⟨x, hx, rfl, hle⟩ := ih hbefore fun w hw =>
      (rank_lt_rank_concat places i).trans (hfirst w hw)
    -- its last relationship leaves an id that was taken, so it was followed
    have hlength : i < (r.links x.id).length := (List.getElem?_eq_some_iff.1 hrel).1
    obtain ⟨z, hz, hid, hz'⟩ := h.explored.followed x (List.mem_append_left _ hx) i rel last
      (h.behind x hx i hlength) hrel hto
    have hrank := hz'.trans (rank_concat_le_rank_concat hle le_rfl)
    refine ⟨z, ?_, hid, hrank⟩
    rcases List.mem_append.1 hz with htaken | hwaiting
    · exact htaken
    · exact absurd hrank (not_le.2 (hfirst z hwaiting))

/-- No walk to what was not taken comes before that to the first that
waits. -/
theorem rank_le (h : Rested r source goal bound taken (y :: waiting) s) {places : List ℕ}
    {steps : Way} {last : String} (hwalk : r.Walk source places steps last)
    (hnew : ∀ x ∈ taken, x.id ≠ last) : rank y.places ≤ rank places := by
  by_contra hlt
  have hsorted := (List.pairwise_append.1 h.explored.sorted).2.1
  obtain ⟨x, hx, hid, -⟩ := h.exists_taken hwalk fun w hw => by
    rcases List.mem_cons.1 hw with rfl | hw
    · exact not_le.1 hlt
    · exact (not_le.1 hlt).trans (List.rel_of_pairwise_cons hsorted hw)
  exact hnew x hx hid

/-- An id that was taken does not wait. -/
theorem id_ne (h : Rested r source goal bound taken (y :: waiting) s) :
    ∀ x ∈ taken, x.id ≠ y.id := by
  intro x hx hid
  have hnodup := h.explored.nodup
  rw [List.map_append, List.nodup_append'] at hnodup
  exact hnodup.2.2 (List.mem_map_of_mem hx) (hid ▸ List.mem_map_of_mem List.mem_cons_self)

/-- **The first that waits was reached by the first walk there.** -/
theorem firstWalk (h : Rested r source goal bound taken (y :: waiting) s) :
    ∃ steps, r.FirstWalk source y.places steps y.id ∧ s.trace.Leads source y.id steps := by
  obtain ⟨steps, hwalk, hleads⟩ := h.explored.ways y (by simp)
  exact ⟨steps, ⟨hwalk, fun _ _ hwalk' => h.rank_le hwalk' h.id_ne⟩, hleads⟩

/-- Where nothing waits no walk leads to the goal. -/
theorem no_walk (h : Rested r source goal bound taken [] s) (places : List ℕ)
    (steps : Way) : ¬ r.Walk source places steps goal := by
  intro hwalk
  obtain ⟨x, hx, hid, -⟩ := h.exists_taken hwalk fun _ hx => by cases hx
  exact h.missed x hx hid

/-- The first that waits is taken. -/
theorem taking (h : Rested r source goal bound taken (y :: waiting) s) :
    Explored r source (rank (y.places ++ [0])) (taken ++ [y]) waiting
      { s with queue := waiting.map Arrival.id } := by
  have hfound : taken ++ [y] ++ waiting = taken ++ y :: waiting := by simp
  have hbound := h.ahead y List.mem_cons_self
  obtain ⟨-, reached, remembered, nodup, sorted, short, below, ways, followed⟩ := h.explored
  rw [← hfound] at reached nodup sorted short below ways followed
  refine ⟨rfl, reached, remembered, nodup, sorted, short, fun x hx => (below x hx).trans_le hbound,
    ways, fun x hx i rel next hlt hrel hto => followed x hx i rel next ?_ hrel hto⟩
  rw [hfound, List.mem_append] at hx
  rcases hx with htaken | hwaiting
  · exact h.behind x htaken i (List.getElem?_eq_some_iff.1 hrel).1
  · -- of those that wait nothing comes before
    have hle : rank y.places ≤ rank x.places := by
      rcases List.mem_cons.1 hwaiting with rfl | hlater
      · exact le_rfl
      · rw [hfound] at sorted
        exact (List.rel_of_pairwise_cons (List.pairwise_append.1 sorted).2.1 hlater).le
    exact absurd hlt (not_lt.2 (rank_concat_le_rank_concat hle (Nat.zero_le i)))

/-- **A turn takes the first that waits**, unless it is the goal. -/
theorem take (h : Rested r source goal bound taken (y :: waiting) s) (hgoal : y.id ≠ goal) :
    ∃ new, Rested r source goal (rank (y.places ++ [(r.links y.id).length])) (taken ++ [y])
      (waiting ++ new)
      ((r.links y.id).foldl (discover y.id) { s with queue := waiting.map Arrival.id }) := by
  obtain ⟨new, hnew⟩ := h.taking.discover_all (List.mem_append_right _ List.mem_cons_self)
  refine ⟨new, hnew, ?_, ?_, ?_, ?_⟩
  · have hbegun := h.begun
    simp only [List.mem_append, List.mem_cons] at hbegun ⊢
    tauto
  · intro x hx i hi
    rcases List.mem_append.1 hx with hx | hx
    · have hlt := (List.pairwise_append.1 h.explored.sorted).2.2 x hx y List.mem_cons_self
      exact rank_concat_lt_rank_concat hlt _ _
    · obtain rfl := List.mem_singleton.1 hx
      exact rank_concat_lt_of_lt _ hi
  · intro x hx
    have hlt := (List.pairwise_append.1 hnew.sorted).2.2 y
      (List.mem_append_right _ List.mem_cons_self) x hx
    exact (rank_concat_lt_rank_concat hlt _ _).le
  · intro x hx
    rcases List.mem_append.1 hx with hx | hx
    · exact h.missed x hx
    · obtain rfl := List.mem_singleton.1 hx
      exact hgoal

/-- Ids that were taken can be reached, so there are not too many. -/
theorem length_le (h : Rested r source goal bound taken waiting s) (hr : r.Surveyable source) :
    (taken ++ waiting).length ≤ r.extent + 1 := by
  have hreaches : ∀ id ∈ (taken ++ waiting).map Arrival.id, r.Reaches source id := by
    intro id hid
    obtain ⟨x, hx, rfl⟩ := List.mem_map.1 hid
    obtain ⟨steps, hwalk, -⟩ := h.explored.ways x hx
    exact hwalk.reaches .start
  have := hr.length_le h.explored.nodup hreaches
  rwa [List.length_map] at this

end Rested

/-! ## Turns -/

/-- A turn that takes the goal asks for the path there and ends. -/
theorem play_turn_arrived (h : Rested r source goal bound taken (y :: waiting) s)
    (hgoal : y.id = goal) (answer : (q : GraphQuestion) → Except Fault q.Answer) :
    (turn source (some goal) s).play answer =
      ((pathAlong s.trace source goal .zero).play answer).andThen
        fun path? => ⟨[], .ok (.finished path?)⟩ := by
  subst hgoal
  rw [turn, h.explored.queue, List.map_cons]
  dsimp only
  rw [play_poll, if_pos rfl, play_bind]
  rfl

/-- The path is the one along the first walk. -/
theorem play_turn_goal (h : Rested r source goal bound taken (y :: waiting) s)
    (hr : r.Surveyable source) (hgoal : y.id = goal) :
    ∃ asked path?, (turn source (some goal) s).play r.answer = ⟨asked, .ok (.finished path?)⟩ ∧
      r.FirstPath source goal path? := by
  obtain ⟨steps, hfirst, hleads⟩ := h.firstWalk
  have hlength : steps.length ≤ s.trace.length :=
    hfirst.1.length_eq ▸ h.explored.length_le_trace (by simp)
  have hids : ∀ id ∈ source :: steps.map Prod.snd,
      r.answer (.entity (.text id)) = .ok (r.entity? id) := fun id hid =>
    hr.answer_entity (hfirst.1.reaches_of_mem .start hid)
  have hplay := play_pathAlong (hgoal ▸ hleads) hlength hids
  rw [play_turn_arrived h hgoal]
  cases hpath : (pathAlong s.trace source goal .zero).play r.answer with
  | mk asked outcome =>
    rw [hpath] at hplay
    obtain rfl : outcome = .ok (r.pathOf source steps) := hplay
    exact ⟨asked ++ [], _, rfl, .along (hgoal ▸ hfirst)⟩

/-- Any other turn follows the relationships of the first that waits. -/
theorem play_turn_of_ne (h : Rested r source goal bound taken (y :: waiting) s)
    (hr : r.Surveyable source) (hgoal : y.id ≠ goal) :
    (turn source (some goal) s).play r.answer =
      ⟨[.relationships (.text y.id) (.bool true) (.bool false)],
        .ok (.again
          ((r.links y.id).foldl (discover y.id) { s with queue := waiting.map Arrival.id }))⟩ := by
  obtain ⟨steps, hwalk, -⟩ := h.explored.ways y (by simp)
  rw [turn, h.explored.queue, List.map_cons]
  dsimp only
  rw [play_poll, if_neg (by simpa using hgoal.symm), GraphDialogue.outgoing, Dialogue.bind,
    play_ask_of_ok (hr.answer_links (hwalk.reaches .start))]
  rfl

/-- What holds between two turns, with some number of ids left that may
be taken. -/
def Going (r : Repository) (source goal : String) (left : ℕ) (s : State) : Prop :=
  ∃ bound taken waiting, Rested r source goal bound taken waiting s ∧
    taken.length + left = r.extent + 1

theorem going_start (r : Repository) (source goal : String) :
    Going r source goal (r.extent + 1) (start source) :=
  ⟨_, _, _, rested_start r source goal, by simp⟩

/-- **Every turn goes on and takes an id, or ends with what there is to
find.** -/
theorem Going.play_turn {left : ℕ} (h : Going r source goal left s) (hr : r.Surveyable source) :
    (∃ asked s' left', (turn source (some goal) s).play r.answer = ⟨asked, .ok (.again s')⟩ ∧
      Going r source goal left' s' ∧ left' < left) ∨
    ∃ asked path?, (turn source (some goal) s).play r.answer = ⟨asked, .ok (.finished path?)⟩ ∧
      r.FirstPath source goal path? := by
  obtain ⟨bound, taken, waiting, h, hleft⟩ := h
  cases waiting with
  | nil =>
    refine Or.inr ⟨[], none, ?_, .nowhere h.no_walk⟩
    rw [turn, h.explored.queue]
    rfl
  | cons y waiting =>
    by_cases hgoal : y.id = goal
    · exact Or.inr (play_turn_goal h hr hgoal)
    · obtain ⟨new, htake⟩ := h.take hgoal
      have hlength := h.length_le hr
      simp only [List.length_append, List.length_cons] at hlength
      refine Or.inl ⟨_, _, left - 1, play_turn_of_ne h hr hgoal, ⟨_, _, _, htake, ?_⟩, by omega⟩
      rw [List.length_append, List.length_singleton]
      omega

end Breadth

open Repository in
/-- **Breadth first finds the path along the first walk to the goal**,
and no path if no walk leads there or an entity is missing. -/
theorem play_fewestHops {r : Repository} {source : String} (hr : r.Surveyable source)
    (goal : String) :
    ∃ path?, ((fewestHops (idBudget r.extent) source (some goal)).play r.answer).outcome =
      .ok path? ∧ r.FirstPath source goal path? := by
  unfold fewestHops
  split
  · rename_i hgoal
    obtain rfl := Option.some.inj hgoal
    refine ⟨_, ?_, .along (firstWalk_here r goal)⟩
    rw [stay, GraphDialogue.entity, Dialogue.bind,
      Dialogue.play_ask_of_ok (hr.answer_entity .start)]
    exact congrArg Except.ok (pathOf_nil r goal).symm
  · have hbudget : r.extent + 1 < idBudget r.extent := Nat.lt_succ_self _
    obtain ⟨more, path?, hplay, hfirst⟩ := Dialogue.play_iterate
      (fun left _ s => Breadth.Going r source goal left s)
      (fun _ path? => r.FirstPath source goal path?) (fun _ _ _ h => h.play_turn hr) []
      (Breadth.going_start r source goal) hbudget
    rw [hplay]
    exact ⟨path?, rfl, hfirst⟩

end KnowledgeGraph.Search
