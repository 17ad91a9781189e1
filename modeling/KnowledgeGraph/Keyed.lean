/-!
# Keyed lists

Lists whose items have keys. `Keyed.put` puts an item in the place of the
one that has its key, so a key that is put twice keeps its first place
and its last item, and no key stands twice (`Keyed.nodup_ofList`).

In a list of pairs the first with a key is what is found under it.
-/

namespace KnowledgeGraph

namespace Keyed

variable {α κ : Type} [DecidableEq κ]

/-- A list with an item in the place of the first that has its key, or
else at the end. -/
def put (key : α → κ) (item : α) : List α → List α
  | [] => [item]
  | x :: rest => if key x = key item then item :: rest else x :: put key item rest

/-- The items of a list, put one after the other. -/
def ofList (key : α → κ) (items : List α) : List α :=
  items.foldl (fun kept item => put key item kept) []

/-- A key is the one just put or was there. -/
theorem mem_keys_put (key : α → κ) (item : α) (xs : List α) (k : κ) :
    k ∈ (put key item xs).map key ↔ k = key item ∨ k ∈ xs.map key := by
  induction xs with
  | nil => simp [put]
  | cons x rest ih =>
    by_cases h : key x = key item
    · simp [put, h]
    · simp only [put, h, if_false, List.map_cons, List.mem_cons, ih]
      exact or_left_comm

/-- What is in a list after an item was put: the item, and what had
another key. -/
theorem mem_put (key : α → κ) (item : α) {xs : List α} (h : (xs.map key).Nodup) (x : α) :
    x ∈ put key item xs ↔ x = item ∨ x ∈ xs ∧ key x ≠ key item := by
  induction xs with
  | nil => simp [put]
  | cons y rest ih =>
    rw [List.map_cons, List.nodup_cons] at h
    by_cases hy : key y = key item
    · have hrest : ∀ z ∈ rest, key z ≠ key item := fun z hz hkey =>
        h.1 (by rw [hy, ← hkey]; exact List.mem_map_of_mem hz)
      rw [put, if_pos hy, List.mem_cons, List.mem_cons]
      constructor
      · rintro (hx | hx)
        · exact Or.inl hx
        · exact Or.inr ⟨Or.inr hx, hrest x hx⟩
      · rintro (hx | ⟨hx | hx, hne⟩)
        · exact Or.inl hx
        · exact absurd (hx ▸ hy) hne
        · exact Or.inr hx
    · rw [put, if_neg hy, List.mem_cons, List.mem_cons, ih h.2]
      constructor
      · rintro (hx | hx | ⟨hx, hne⟩)
        · exact Or.inr ⟨Or.inl hx, hx ▸ hy⟩
        · exact Or.inl hx
        · exact Or.inr ⟨Or.inr hx, hne⟩
      · rintro (hx | ⟨hx | hx, hne⟩)
        · exact Or.inr (Or.inl hx)
        · exact Or.inl hx
        · exact Or.inr (Or.inr ⟨hx, hne⟩)

theorem nodup_put (key : α → κ) (item : α) {xs : List α} (h : (xs.map key).Nodup) :
    ((put key item xs).map key).Nodup := by
  induction xs with
  | nil => simp [put]
  | cons x rest ih =>
    rw [List.map_cons, List.nodup_cons] at h
    by_cases hx : key x = key item
    · simp only [put, hx, if_true, List.map_cons, List.nodup_cons]
      exact ⟨hx ▸ h.1, h.2⟩
    · rw [put, if_neg hx, List.map_cons, List.nodup_cons, mem_keys_put]
      exact ⟨fun hm => hm.elim hx h.1, ih h.2⟩

/-- No key stands twice. -/
theorem nodup_ofList (key : α → κ) (items : List α) : ((ofList key items).map key).Nodup := by
  suffices ∀ kept : List α, (kept.map key).Nodup →
      ((items.foldl (fun kept item => put key item kept) kept).map key).Nodup from this [] (by simp)
  induction items with
  | nil => exact fun _ h => h
  | cons item rest ih => exact fun kept h => ih _ (nodup_put key item h)

end Keyed

section Lookup

variable {α : Type} {pairs : List (String × α)} {key : String}

/-- Nothing is found under what is no key. -/
theorem lookup_eq_none_iff : pairs.lookup key = none ↔ key ∉ pairs.map Prod.fst := by
  rw [List.lookup_eq_none_iff]
  constructor
  · intro h hk
    obtain ⟨pair, hpair, rfl⟩ := List.mem_map.1 hk
    simpa using h pair hpair
  · intro h pair hpair
    have hne : key ≠ pair.1 := fun heq => h (List.mem_map.2 ⟨pair, hpair, heq.symm⟩)
    simpa using hne

/-- What is found under a key stands there. -/
theorem mem_of_lookup {a : α} (h : pairs.lookup key = some a) : (key, a) ∈ pairs := by
  obtain ⟨before, after, rfl, -⟩ := List.lookup_eq_some_iff.1 h
  exact List.mem_append_right _ List.mem_cons_self

/-- A pair in front hides none with another key. -/
theorem lookup_cons_of_ne {other : String} (h : key ≠ other) (a : α) :
    List.lookup key ((other, a) :: pairs) = pairs.lookup key := by
  rw [List.lookup_cons, beq_false_of_ne h]

end Lookup

end KnowledgeGraph
