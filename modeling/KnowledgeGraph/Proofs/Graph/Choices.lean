import KnowledgeGraph.Proofs.Graph.Ways
/-!
# Ways by the places they choose

A walk is told by the places of the relationships it takes in their lists.
`Repository.placedTo` lists the ways to a goal together with these places.
Without them it is the list of ways (`map_snd_placedTo`). It has each walk
that comes to no id twice and is not too long, and nothing else
(`mem_placedTo_iff`), in the order of places, where the first choice that
differs decides (`pairwise_placedTo`). So plain recursion leaves no way
out and repeats none.
-/

namespace KnowledgeGraph

namespace Repository

/-- The ways that begin with the relationship at some place, where `further`
says how ways go on from the next id. -/
def placedBy (goal : String) (further : List String → String → List (List ℕ × Way))
    (passed : List String) (id : String) (link : Relationship × ℕ) : List (List ℕ × Way) :=
  match link.1.neighborOf id with
  | none => []
  | some next =>
    if next ∈ passed then []
    else if next = goal then [([link.2], [(link.1, next)])]
    else (further (next :: passed) next).map fun way =>
      (link.2 :: way.1, (link.1, next) :: way.2)

/-- The ways from an id to a goal, each with the places it chooses. -/
def placed (r : Repository) (goal : String) :
    ℕ → List String → String → List (List ℕ × Way)
  | 0, _, _ => []
  | n + 1, passed, id => (r.links id).zipIdx.flatMap (placedBy goal (placed r goal n) passed id)

/-- The ways from a source to a goal with at most some number of
relationships, each with the places it chooses. -/
def placedTo (r : Repository) (goal : String) (maxHops : ℕ) (source : String) :
    List (List ℕ × Way) :=
  if source = goal then [([], [])] else r.placed goal maxHops [source] source

variable {r : Repository} {goal id source : String} {n i : ℕ} {passed : List String}
  {rel : Relationship} {steps : Way} {places : List ℕ}

/-! ## Places left aside -/

theorem map_snd_placedBy {further : List String → String → List (List ℕ × Way)}
    {onward : List String → String → List Way}
    (h : ∀ passed id, (further passed id).map Prod.snd = onward passed id)
    (link : Relationship × ℕ) :
    (placedBy goal further passed id link).map Prod.snd = waysBy goal onward passed id link.1 := by
  unfold placedBy waysBy
  cases link.1.neighborOf id with
  | none => rfl
  | some next =>
    dsimp only
    split
    · rfl
    · split
      · rfl
      · rw [← h, List.map_map, List.map_map]
        rfl

theorem map_snd_placed (r : Repository) (goal : String) (n : ℕ) (passed : List String)
    (id : String) : (r.placed goal n passed id).map Prod.snd = r.ways goal n passed id := by
  induction n generalizing passed id with
  | zero => rfl
  | succ n ih =>
    have hlinks : r.links id = (r.links id).zipIdx.map Prod.fst := (List.zipIdx_map_fst 0 _).symm
    rw [placed, List.map_flatMap, ways]
    conv_rhs => rw [hlinks, List.flatMap_map]
    congr
    funext link
    exact map_snd_placedBy ih link

/-- **Without places these are the ways.** -/
theorem map_snd_placedTo (r : Repository) (goal : String) (n : ℕ) (source : String) :
    (r.placedTo goal n source).map Prod.snd = r.waysTo goal n source := by
  unfold placedTo waysTo
  split
  · rfl
  · exact map_snd_placed r goal n [source] source

/-! ## Every walk is there -/

theorem mem_placedBy_iff {further : List String → String → List (List ℕ × Way)} :
    (places, steps) ∈ placedBy goal further passed id (rel, i) ↔
      ∃ next, rel.neighborOf id = some next ∧ next ∉ passed ∧
        ((next = goal ∧ places = [i] ∧ steps = [(rel, next)]) ∨
          next ≠ goal ∧ ∃ way ∈ further (next :: passed) next,
            places = i :: way.1 ∧ steps = (rel, next) :: way.2) := by
  unfold placedBy
  cases hto : rel.neighborOf id with
  | none => simp
  | some next =>
    dsimp only
    by_cases hpassed : next ∈ passed
    · rw [if_pos hpassed]
      refine iff_of_false List.not_mem_nil ?_
      rintro ⟨other, hother, hnew, -⟩
      exact hnew (Option.some.inj hother ▸ hpassed)
    rw [if_neg hpassed]
    by_cases hgoal : next = goal
    · simp [hgoal, hgoal ▸ hpassed]
    · rw [if_neg hgoal, List.mem_map]
      constructor
      · rintro ⟨way, hway, hsplit⟩
        obtain ⟨rfl, rfl⟩ := Prod.mk.inj hsplit
        exact ⟨next, rfl, hpassed, Or.inr ⟨hgoal, way, hway, rfl, rfl⟩⟩
      · rintro ⟨other, hother, -, hrest⟩
        obtain rfl := Option.some.inj hother
        obtain ⟨-, way, hway, rfl, rfl⟩ := hrest.resolve_left fun h => hgoal h.1
        exact ⟨way, hway, rfl⟩

/-- From any id but the goal the ways are the walks that come to no id
twice, and to none that was passed. -/
theorem mem_placed_iff (hne : id ≠ goal) :
    (places, steps) ∈ r.placed goal n passed id ↔
      r.Walk id places steps goal ∧ (steps.map Prod.snd).Nodup ∧
        (∀ x ∈ steps.map Prod.snd, x ∉ passed) ∧ steps.length ≤ n := by
  induction n generalizing passed id places steps with
  | zero =>
    refine iff_of_false List.not_mem_nil ?_
    rintro ⟨hwalk, -, -, hlength⟩
    obtain rfl := List.length_eq_zero_iff.1 (Nat.le_zero.1 hlength)
    cases hwalk with
    | here => exact hne rfl
  | succ n ih =>
    rw [placed, List.mem_flatMap]
    constructor
    · rintro ⟨⟨rel, i⟩, hlink, hmem⟩
      have hrel : (r.links id)[i]? = some rel := List.mem_zipIdx_iff_getElem?.1 hlink
      obtain ⟨next, hto, hnew, hrest⟩ := mem_placedBy_iff.1 hmem
      rcases hrest with ⟨rfl, rfl, rfl⟩ | ⟨hgoal, ⟨places', steps'⟩, hfurther, rfl, rfl⟩
      · exact ⟨.step hrel hto .here, by simp, by simpa using hnew, by simp⟩
      · obtain ⟨hwalk, hnodup, hpassed, hlength⟩ := (ih hgoal).1 hfurther
        refine ⟨.step hrel hto hwalk, ?_, ?_, by simpa using hlength⟩
        · exact List.nodup_cons.2 ⟨fun hback => hpassed _ hback List.mem_cons_self, hnodup⟩
        · intro x hx
          rcases List.mem_cons.1 hx with rfl | hx
          · exact hnew
          · exact fun hmem => hpassed x hx (List.mem_cons_of_mem _ hmem)
    · rintro ⟨hwalk, hnodup, hpassed, hlength⟩
      cases hwalk with
      | here => exact absurd rfl hne
      | @step _ next _ rel i places steps hrel hto hrest =>
        rw [List.map_cons, List.nodup_cons] at hnodup
        refine ⟨(rel, i), List.mem_zipIdx_iff_getElem?.2 hrel, mem_placedBy_iff.2
          ⟨next, hto, hpassed next List.mem_cons_self, ?_⟩⟩
        by_cases hgoal : next = goal
        · -- the goal is where the walk ends
          subst hgoal
          cases hrest with
          | here => exact Or.inl ⟨rfl, rfl, rfl⟩
          | step _ _ hmore => exact absurd hmore.last_mem hnodup.1
        · refine Or.inr ⟨hgoal, (places, steps), (ih hgoal).2 ⟨hrest, hnodup.2, ?_, ?_⟩, rfl, rfl⟩
          · intro x hx hmem
            rcases List.mem_cons.1 hmem with rfl | hmem
            · exact hnodup.1 hx
            · exact hpassed x (List.mem_cons_of_mem _ hx) hmem
          · rw [List.length_cons] at hlength
            omega

/-- **The ways are exactly the walks that come to no id twice**, as far as
there is room for them. -/
theorem mem_placedTo_iff :
    (places, steps) ∈ r.placedTo goal n source ↔
      r.Walk source places steps goal ∧ (source :: steps.map Prod.snd).Nodup ∧
        steps.length ≤ n := by
  unfold placedTo
  rw [List.nodup_cons]
  split
  · rename_i hgoal
    subst hgoal
    constructor
    · intro hmem
      obtain ⟨rfl, rfl⟩ := Prod.mk.inj (List.mem_singleton.1 hmem)
      exact ⟨.here, ⟨List.not_mem_nil, List.nodup_nil⟩, Nat.zero_le n⟩
    · rintro ⟨hwalk, ⟨hnew, -⟩, -⟩
      cases hwalk with
      | here => exact List.mem_singleton_self _
      | step _ _ hmore => exact absurd hmore.last_mem hnew
  · rename_i hne
    rw [mem_placed_iff hne]
    simp only [List.mem_singleton]
    constructor
    · rintro ⟨hwalk, hnodup, hpassed, hlength⟩
      exact ⟨hwalk, ⟨fun hback => hpassed _ hback rfl, hnodup⟩, hlength⟩
    · rintro ⟨hwalk, ⟨hnew, hnodup⟩, hlength⟩
      exact ⟨hwalk, hnodup, fun x hx heq => hnew (heq ▸ hx), hlength⟩

/-- **Every walk that comes to no id twice is a way**, as soon as there is
room for it. -/
theorem mem_waysTo_of_walk (h : r.Walk source places steps goal)
    (hnodup : (source :: steps.map Prod.snd).Nodup) (hn : steps.length ≤ n) :
    steps ∈ r.waysTo goal n source := by
  rw [← map_snd_placedTo]
  exact List.mem_map_of_mem (mem_placedTo_iff.2 ⟨h, hnodup, hn⟩)

/-! ## In the order of places -/

theorem exists_cons_of_mem_placedBy {further : List String → String → List (List ℕ × Way)}
    {link : Relationship × ℕ} {way : List ℕ × Way}
    (h : way ∈ placedBy goal further passed id link) : ∃ rest, way.1 = link.2 :: rest := by
  obtain ⟨places, steps⟩ := way
  obtain ⟨next, -, -, ⟨-, rfl, -⟩ | ⟨-, way, -, rfl, -⟩⟩ := mem_placedBy_iff.1 h
  · exact ⟨[], rfl⟩
  · exact ⟨way.1, rfl⟩

theorem pairwise_placedBy {further : List String → String → List (List ℕ × Way)}
    (h : ∀ passed id, (further passed id).Pairwise fun a b => a.1 < b.1)
    (link : Relationship × ℕ) :
    (placedBy goal further passed id link).Pairwise fun a b => a.1 < b.1 := by
  unfold placedBy
  split
  · exact List.Pairwise.nil
  · split
    · exact List.Pairwise.nil
    · split
      · exact List.pairwise_singleton _ _
      · refine List.pairwise_map.2 ((h _ _).imp fun hless => ?_)
        exact List.cons_lt_cons_iff.2 (Or.inr ⟨rfl, hless⟩)

theorem pairwise_placed (r : Repository) (goal : String) (n : ℕ) (passed : List String)
    (id : String) : (r.placed goal n passed id).Pairwise fun a b => a.1 < b.1 := by
  induction n generalizing passed id with
  | zero => exact List.Pairwise.nil
  | succ n ih =>
    have hplaces : (r.links id).zipIdx.Pairwise fun a b => a.2 < b.2 := by
      rw [← List.pairwise_map, List.zipIdx_map_snd]
      exact List.pairwise_lt_range'
    refine List.pairwise_flatMap.2 ⟨fun link _ => pairwise_placedBy ih link, ?_⟩
    refine hplaces.imp fun hless way hway other hother => ?_
    obtain ⟨rest, hrest⟩ := exists_cons_of_mem_placedBy hway
    obtain ⟨rest', hrest'⟩ := exists_cons_of_mem_placedBy hother
    rw [hrest, hrest']
    exact List.cons_lt_cons_iff.2 (Or.inl hless)

/-- **The ways come in the order of the places they choose.** -/
theorem pairwise_placedTo (r : Repository) (goal : String) (n : ℕ) (source : String) :
    (r.placedTo goal n source).Pairwise fun a b => a.1 < b.1 := by
  unfold placedTo
  split
  · exact List.pairwise_singleton _ _
  · exact pairwise_placed r goal n [source] source

/-! ## What the ways are -/

/-- Whether some ways, each with the places it chooses, are all those from a
source to a goal with at most so many relationships: every walk that comes
to no id twice, once, in the order of the places chosen. -/
structure Enumerates (r : Repository) (source goal : String) (maxHops : ℕ)
    (ways : List (List ℕ × Way)) : Prop where
  recursion : ways.map Prod.snd = r.waysTo goal maxHops source
  mem_iff : ∀ places steps, (places, steps) ∈ ways ↔
    r.Walk source places steps goal ∧ (source :: steps.map Prod.snd).Nodup ∧
      steps.length ≤ maxHops
  ordered : ways.Pairwise fun a b => a.1 < b.1

/-- **Plain recursion enumerates the ways.** -/
theorem enumerates_placedTo (r : Repository) (source goal : String) (maxHops : ℕ) :
    r.Enumerates source goal maxHops (r.placedTo goal maxHops source) :=
  ⟨map_snd_placedTo r goal maxHops source, fun _ _ => mem_placedTo_iff,
    pairwise_placedTo r goal maxHops source⟩

/-- From an id to itself there is the one way that takes no relationship,
however much room there is. -/
theorem Enumerates.eq_singleton {ways : List (List ℕ × Way)}
    (h : r.Enumerates source source n ways) : ways = [([], [])] := by
  obtain ⟨way, rfl⟩ : ∃ way, ways = [way] := by
    rw [← List.length_eq_one_iff, ← List.length_map (f := Prod.snd), h.recursion, waysTo,
      if_pos rfl]
    rfl
  have hmem := (h.mem_iff [] []).2 ⟨.here, List.nodup_singleton _, Nat.zero_le n⟩
  rw [List.mem_singleton.1 hmem]

end Repository

end KnowledgeGraph
