import KnowledgeGraph.Proofs.Number.Product
/-!
# Integers as doubles

A positive integer has a nearest double, and that is finite unless the
integer lies half a unit of the last place or more beyond the greatest
double (`ofInt?_eq_none_iff`). Up to `2^53` every integer is a double
itself (`exists_ofInt?_eq`).
-/

namespace KnowledgeGraph

namespace Binary64

/-- The least integer that rounds out of the range of doubles: it is half
way between the greatest double and `2^1024`, and a tie goes away from the
odd significand of that double. -/
def overflowFrom : ℕ := 2 ^ 1024 - 2 ^ 970

/-- The double of a natural number is what it rounds to, if that is
finite. -/
theorem ofInt?_natCast {n : ℕ} {x : Binary64} (hx : ofUnits false (n * unitsPerOne) 1 = x)
    (hnan : x ≠ nan) : ofInt? n = if x.isFinite then some x else none := by
  have hratio : ofRatio (decide ((n : ℤ) < 0)) (n : ℤ).natAbs 1 = x := by
    rw [decide_eq_false (Int.natCast_nonneg n).not_gt, Int.natAbs_natCast]
    exact hx
  -- unfolded at `n`, the kernel would round a number it does not know
  obtain ⟨f, hf⟩ : ∃ f, f = ofInt? := ⟨_, rfl⟩
  rw [← hf]
  delta ofInt? at hf
  rw [hf]
  beta_reduce
  rw [hratio]
  cases x with
  | nan => exact absurd rfl hnan
  | infinite s => rfl
  | finite s u hu => rfl

theorem ofInt?_natCast_of_lt {n : ℕ} (h : nearestUnits (n * unitsPerOne) 1 < unitLimit) :
    ofInt? n = some (finite false _ (isRepresentable_nearestUnits h)) :=
  (ofInt?_natCast (dif_pos h) nofun).trans (if_pos rfl)

theorem ofInt?_natCast_of_le {n : ℕ} (h : ¬ nearestUnits (n * unitsPerOne) 1 < unitLimit) :
    ofInt? n = none :=
  (ofInt?_natCast (dif_neg h) nofun).trans (if_neg Bool.false_ne_true)

/-- **Rounding leads out of range from one integer on.** -/
theorem nearestUnits_lt_unitLimit_iff (n : ℕ) :
    nearestUnits (n * unitsPerOne) 1 < unitLimit ↔ n < overflowFrom := by
  have hmono : ∀ {m n : ℕ}, m ≤ n →
      nearestUnits (m * unitsPerOne) 1 ≤ nearestUnits (n * unitsPerOne) 1 := fun h =>
    nearestUnits_le_nearestUnits Nat.one_pos Nat.one_pos
      (Nat.mul_le_mul_right _ (Nat.mul_le_mul_right _ h))
  have hfrom : unitLimit ≤ nearestUnits (overflowFrom * unitsPerOne) 1 := by decide +kernel
  have hbefore : nearestUnits ((overflowFrom - 1) * unitsPerOne) 1 < unitLimit := by decide +kernel
  constructor
  · intro h
    by_contra hle
    exact absurd (hfrom.trans (hmono (Nat.le_of_not_lt hle))) (Nat.not_le.2 h)
  · intro h
    exact lt_of_le_of_lt (hmono (Nat.le_sub_one_of_lt h)) hbefore

/-- **An integer has no double from there on**, and one before. -/
theorem ofInt?_natCast_eq_none_iff (n : ℕ) : ofInt? n = none ↔ overflowFrom ≤ n := by
  rw [← Nat.not_lt, ← nearestUnits_lt_unitLimit_iff]
  by_cases h : nearestUnits (n * unitsPerOne) 1 < unitLimit
  · rw [ofInt?_natCast_of_lt h]
    exact iff_of_false (Option.some_ne_none _) (not_not_intro h)
  · exact iff_of_true (ofInt?_natCast_of_le h) h

/-- **Up to `2^53` an integer is a double.** -/
theorem exists_ofInt?_natCast_eq {n : ℕ} (h : n ≤ 2 ^ 53) :
    ∃ x, ofInt? n = some x ∧ x.key = some ((n * unitsPerOne : ℕ) : ℤ) := by
  have hshift : ∀ k, n * (1 <<< k) = n <<< k := fun k => by
    rw [Nat.shiftLeft_eq, Nat.shiftLeft_eq, Nat.one_mul]
  have hdvd : 1 <<< ((n * unitsPerOne).log2 - 52) ∣ n * unitsPerOne := by
    rw [unitsPerOne, hshift]
    exact shiftLeft_log2_dvd h
  have hlt : n * unitsPerOne < unitLimit :=
    lt_of_le_of_lt (Nat.mul_le_mul_right _ h) (by decide +kernel)
  have hnearest : nearestUnits (n * unitsPerOne) 1 = n * unitsPerOne := by
    have hmul := nearestUnits_mul ⟨hlt, hdvd⟩ Nat.one_pos
    rwa [Nat.mul_one] at hmul
  have hrange : nearestUnits (n * unitsPerOne) 1 < unitLimit := by rwa [hnearest]
  refine ⟨_, ofInt?_natCast_of_lt hrange, ?_⟩
  exact congrArg (fun units : ℕ => some (units : ℤ)) hnearest

end Binary64

end KnowledgeGraph
