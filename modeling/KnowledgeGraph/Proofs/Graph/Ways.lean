import KnowledgeGraph.Proofs.Graph.Reach
import Mathlib.Data.List.MinMax
/-!
# All ways to a goal

The ways from an id to a goal that come to no id twice, in the order in
which relationships are chosen: `Repository.ways` lists them by plain
recursion, first choices first.

Each of them is a walk (`walk_of_mem_waysTo`), and the first walk is
among them. Before it stand longer ways only, for an equally long one
that chooses earlier would come first in the order of walks
(`FirstWalk.foremost_waysTo`).
-/

namespace KnowledgeGraph

/-! ## The first of the least -/

section Foremost

variable {α β : Type} {f : α → ℕ} {x : α} {xs : List α}

/-- An item for which some number is least, before all others for which it
is. -/
def Foremost (f : α → ℕ) (x : α) (xs : List α) : Prop :=
  ∃ before after, xs = before ++ x :: after ∧ (∀ y ∈ before, f x < f y) ∧ ∀ y ∈ after, f x ≤ f y

theorem foremost_singleton (f : α → ℕ) (x : α) : Foremost f x [x] :=
  ⟨[], [], rfl, by simp, by simp⟩

/-- An item stays the first of the least among more that are not less, and
greater if they come before. -/
theorem Foremost.flatMap {items : List β} {item : β} {i : ℕ} {g : β → List α}
    (h : Foremost f x (g item)) (hitem : items[i]? = some item)
    (hbefore : ∀ j < i, ∀ other, items[j]? = some other → ∀ y ∈ g other, f x < f y)
    (hall : ∀ other ∈ items, ∀ y ∈ g other, f x ≤ f y) : Foremost f x (items.flatMap g) := by
  obtain ⟨before, after, hsplit, hless, hle⟩ := h
  obtain ⟨hi, hget⟩ := List.getElem?_eq_some_iff.1 hitem
  have hitems : items = items.take i ++ item :: items.drop (i + 1) := by
    rw [← hget, List.cons_getElem_drop_succ, List.take_append_drop]
  refine ⟨(items.take i).flatMap g ++ before, after ++ (items.drop (i + 1)).flatMap g, ?_, ?_, ?_⟩
  · conv_lhs => rw [hitems, List.flatMap_append, List.flatMap_cons, hsplit]
    simp
  · intro y hy
    rcases List.mem_append.1 hy with hy | hy
    · obtain ⟨other, hother, hy⟩ := List.mem_flatMap.1 hy
      obtain ⟨j, hj, rfl⟩ := List.mem_take_iff_getElem.1 hother
      exact hbefore j (by omega) _ (List.getElem?_eq_getElem (by omega)) y hy
    · exact hless y hy
  · intro y hy
    rcases List.mem_append.1 hy with hy | hy
    · exact hle y hy
    · obtain ⟨other, hother, hy⟩ := List.mem_flatMap.1 hy
      exact hall other (List.mem_of_mem_drop hother) y hy

theorem Foremost.map_succ {f' : β → ℕ} {g : α → β} (h : Foremost f x xs)
    (hg : ∀ y, f' (g y) = f y + 1) : Foremost f' (g x) (xs.map g) := by
  obtain ⟨before, after, rfl, hless, hle⟩ := h
  refine ⟨before.map g, after.map g, by rw [List.map_append, List.map_cons], ?_, ?_⟩
  · intro z hz
    obtain ⟨y, hy, rfl⟩ := List.mem_map.1 hz
    have := hless y hy
    rw [hg, hg]
    omega
  · intro z hz
    obtain ⟨y, hy, rfl⟩ := List.mem_map.1 hz
    have := hle y hy
    rw [hg, hg]
    omega

theorem Foremost.filterMap {f' : β → ℕ} {g : α → Option β} {z : β} (h : Foremost f x xs)
    (hx : g x = some z) (hg : ∀ y z, g y = some z → f' z = f y) :
    Foremost f' z (xs.filterMap g) := by
  obtain ⟨before, after, rfl, hless, hle⟩ := h
  refine ⟨before.filterMap g, after.filterMap g, ?_, fun w hw => ?_, fun w hw => ?_⟩
  · rw [List.filterMap_append, List.filterMap_cons_some hx]
  · obtain ⟨y, hy, hyw⟩ := List.mem_filterMap.1 hw
    rw [hg x z hx, hg y w hyw]
    exact hless y hy
  · obtain ⟨y, hy, hyw⟩ := List.mem_filterMap.1 hw
    rw [hg x z hx, hg y w hyw]
    exact hle y hy

/-- **The first of the least is what a search for it finds.** -/
theorem Foremost.argmin_eq [DecidableEq α] (h : Foremost f x xs) : xs.argmin f = some x := by
  obtain ⟨before, after, rfl, hless, hle⟩ := h
  have hbefore : ∀ y ∈ before ++ x :: after, f y ≤ f x → y ∉ before := fun y _ hy hmem =>
    absurd (hless y hmem) (Nat.not_lt.2 hy)
  refine List.argmin_eq_some_iff.2 ⟨by simp, fun y hy => ?_, fun y hy hyx => ?_⟩
  · rcases List.mem_append.1 hy with hy | hy
    · exact (hless y hy).le
    · rcases List.mem_cons.1 hy with rfl | hy
      · exact le_rfl
      · exact hle y hy
  · rw [List.idxOf_append_of_notMem (hbefore x (by simp) le_rfl), List.idxOf_cons_self,
      List.idxOf_append_of_notMem (hbefore y hy hyx)]
    omega

end Foremost

namespace Repository

/-- The ways that begin with some relationship of an id, where `further`
says how ways go on from the next id. -/
def waysBy (goal : String) (further : List String → String → List Way) (passed : List String)
    (id : String) (rel : Relationship) : List Way :=
  match rel.neighborOf id with
  | none => []
  | some next =>
    if next ∈ passed then []
    else if next = goal then [[(rel, next)]]
    else (further (next :: passed) next).map fun way => (rel, next) :: way

/-- The ways from an id to a goal with at most some number of
relationships, which come to no id that was passed. -/
def ways (r : Repository) (goal : String) : ℕ → List String → String → List Way
  | 0, _, _ => []
  | n + 1, passed, id => (r.links id).flatMap (waysBy goal (ways r goal n) passed id)

/-- The ways from a source to a goal with at most some number of
relationships. From the goal to itself there is nothing to follow. -/
def waysTo (r : Repository) (goal : String) (maxHops : ℕ) (source : String) : List Way :=
  if source = goal then [[]] else r.ways goal maxHops [source] source

variable {r : Repository} {goal id : String} {n i : ℕ} {passed : List String} {rel : Relationship}
  {way steps : Way} {places : List ℕ}

/-! ## Ways are walks -/

theorem walk_of_mem_waysBy {further : List String → String → List Way}
    (hfurther : ∀ passed id, ∀ way ∈ further passed id, ∃ places, r.Walk id places way goal)
    (hrel : (r.links id)[i]? = some rel) (hway : way ∈ waysBy goal further passed id rel) :
    ∃ places, r.Walk id (i :: places) way goal := by
  unfold waysBy at hway
  cases hto : rel.neighborOf id with
  | none => simp [hto] at hway
  | some next =>
    simp only [hto] at hway
    split at hway
    · cases hway
    · split at hway
      · rename_i hgoal
        obtain rfl := List.mem_singleton.1 hway
        exact ⟨[], .step hrel hto (hgoal ▸ .here)⟩
      · obtain ⟨rest, hrest, rfl⟩ := List.mem_map.1 hway
        obtain ⟨places, hwalk⟩ := hfurther _ _ rest hrest
        exact ⟨places, .step hrel hto hwalk⟩

theorem walk_of_mem_ways (hway : way ∈ r.ways goal n passed id) :
    ∃ places, r.Walk id places way goal := by
  induction n generalizing passed id way with
  | zero => cases hway
  | succ n ih =>
    obtain ⟨rel, hrel, hway⟩ := List.mem_flatMap.1 hway
    obtain ⟨i, hi⟩ := List.mem_iff_getElem?.1 hrel
    obtain ⟨places, hwalk⟩ := walk_of_mem_waysBy (fun _ _ _ h => ih h) hi hway
    exact ⟨i :: places, hwalk⟩

/-- **Every way is a walk.** -/
theorem walk_of_mem_waysTo (hway : way ∈ r.waysTo goal n id) :
    ∃ places, r.Walk id places way goal := by
  unfold waysTo at hway
  split at hway
  · rename_i hgoal
    obtain rfl := List.mem_singleton.1 hway
    exact ⟨[], hgoal ▸ .here⟩
  · exact walk_of_mem_ways hway

/-- Where no walk leads to the goal there are no ways. -/
theorem waysTo_eq_nil (h : ∀ places steps, ¬ r.Walk id places steps goal) (n : ℕ) :
    r.waysTo goal n id = [] := by
  rw [List.eq_nil_iff_forall_not_mem]
  intro way hway
  obtain ⟨places, hwalk⟩ := walk_of_mem_waysTo hway
  exact h places way hwalk

/-! ## The first walk among the ways -/

/-- A way that chooses an earlier relationship than the first walk is
longer. -/
theorem FirstWalk.length_lt {j : ℕ} (h : r.FirstWalk id (i :: places) steps goal)
    {places' : List ℕ} (hwalk : r.Walk id (j :: places') way goal) (hj : j < i) :
    steps.length < way.length := by
  refine (h.length_le hwalk).lt_of_ne fun hlength => ?_
  have hplaces : places'.length = places.length := by
    have hthis := h.1.length_eq
    have hthat := hwalk.length_eq
    simp only [List.length_cons] at hthis hthat
    omega
  exact absurd (h.2 _ _ hwalk) (not_le.2 (rank_cons_lt_rank_cons hplaces hj))

/-- **Of the ways the first walk is the first of the shortest.** Ids passed
on the way stand in nobody's way, as long as none of them is nearer to the
goal. -/
theorem FirstWalk.foremost_ways (h : r.FirstWalk id places steps goal) (hne : id ≠ goal)
    (hpassed : ∀ x ∈ passed, ∀ places' steps', r.Walk x places' steps' goal →
      steps.length ≤ steps'.length)
    (hn : steps.length ≤ n) : Foremost List.length steps (r.ways goal n passed id) := by
  induction steps generalizing id places n passed with
  | nil =>
    cases h.1 with
    | here => exact absurd rfl hne
  | cons step steps ih =>
    obtain ⟨rel, next⟩ := step
    obtain ⟨i, places, rfl⟩ := h.exists_cons
    obtain ⟨hrel, hto, htail⟩ := h.tail
    simp only [List.length_cons] at hn hpassed
    obtain ⟨n, rfl⟩ : ∃ m, n = m + 1 := ⟨n - 1, by omega⟩
    have hnext : next ∉ passed := fun hmem => by
      have hle := hpassed next hmem _ _ htail.1
      omega
    -- among the ways that begin like the first walk it is the rest that decides
    have hsame : Foremost List.length ((rel, next) :: steps)
        (waysBy goal (r.ways goal n) passed id rel) := by
      unfold waysBy
      simp only [hto, if_neg hnext]
      split
      · rename_i hgoal
        subst hgoal
        rw [htail.eq_nil]
        exact foremost_singleton _ _
      · rename_i hgoal
        refine (ih htail hgoal (fun x hx places' steps' hwalk => ?_) (by omega)).map_succ
          fun _ => rfl
        rcases List.mem_cons.1 hx with rfl | hx
        · exact htail.length_le hwalk
        · have hle := hpassed x hx _ _ hwalk
          omega
    refine hsame.flatMap hrel (fun j hj other hother way hway => ?_) fun other hother way hway => ?_
    · obtain ⟨places', hwalk⟩ := walk_of_mem_waysBy (fun _ _ _ h => walk_of_mem_ways h) hother hway
      exact h.length_lt hwalk hj
    · obtain ⟨j, hj⟩ := List.mem_iff_getElem?.1 hother
      obtain ⟨places', hwalk⟩ := walk_of_mem_waysBy (fun _ _ _ h => walk_of_mem_ways h) hj hway
      exact h.length_le hwalk

/-- **Of all ways to a goal the first walk is the first of the
shortest**, as soon as there is room for it. -/
theorem FirstWalk.foremost_waysTo (h : r.FirstWalk id places steps goal) (hn : steps.length ≤ n) :
    Foremost List.length steps (r.waysTo goal n id) := by
  unfold waysTo
  split
  · rename_i hgoal
    subst hgoal
    rw [h.eq_nil]
    exact foremost_singleton _ _
  · rename_i hne
    refine h.foremost_ways hne (fun x hx places' steps' hwalk => ?_) hn
    obtain rfl := List.mem_singleton.1 hx
    exact h.length_le hwalk

end Repository

end KnowledgeGraph
