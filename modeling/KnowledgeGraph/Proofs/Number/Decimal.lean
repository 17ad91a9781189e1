import KnowledgeGraph.Number.Format
import KnowledgeGraph.Proofs.Number.Rounding
import Mathlib.Algebra.Order.Field.Power
import Mathlib.Algebra.Order.Ring.Rat
import Mathlib.Tactic.FieldSimp
import Mathlib.Tactic.NormNum
/-!
# What a decimal is worth

A decimal is a rational number written down, and its double depends on
that number alone (`toBinary64_congr`): not on zeros at the end of the
coefficient, nor on where the power of ten is kept. The shortest decimal
of a double therefore reads back however it is spelt
(`toBinary64_shortest`).
-/

namespace KnowledgeGraph

/-! ## Runs of digits -/

theorem ofDigits_eq_ofDigitChars (digits : List Char) :
    ofDigits digits = Nat.ofDigitChars 10 digits 0 :=
  Nat.ofDigitChars_eq_foldl.symm

@[simp] theorem ofDigits_digitsOf (n : ℕ) : ofDigits (digitsOf n) = n := by
  rw [ofDigits_eq_ofDigitChars, digitsOf, Nat.ofDigitChars_ten_toDigits]

theorem ofDigits_append (front back : List Char) :
    ofDigits (front ++ back) = ofDigits front * 10 ^ back.length + ofDigits back := by
  simp only [ofDigits_eq_ofDigitChars, Nat.ofDigitChars_append]
  rw [Nat.ofDigitChars_eq_ofDigitChars_zero, Nat.mul_comm]

@[simp] theorem ofDigits_replicate_zero (n : ℕ) : ofDigits (List.replicate n '0') = 0 := by
  rw [ofDigits_eq_ofDigitChars, Nat.ofDigitChars_replicate_zero, Nat.mul_zero]

theorem digitsOf_ne_nil (n : ℕ) : digitsOf n ≠ [] := Nat.toDigits_ne_nil

theorem isDigit_of_mem_digitsOf {n : ℕ} {c : Char} (h : c ∈ digitsOf n) : c.isDigit = true :=
  Nat.isDigit_of_mem_toDigits (by decide) (by decide) h

theorem digitsOf_injective : Function.Injective digitsOf := fun m n h => by
  rw [← ofDigits_digitsOf m, h, ofDigits_digitsOf]

namespace Decimal

/-! ## The worth of a decimal -/

/-- The number that a decimal is. -/
def value (d : Decimal) : ℚ := d.coefficient * 10 ^ d.exponent

@[simp] theorem value_eq_zero_iff {d : Decimal} : d.value = 0 ↔ d.coefficient = 0 := by
  simp [value, zpow_ne_zero]

/-- Where the point stands is where the number stands among the powers
of ten. -/
theorem point_le_iff {d : Decimal} (h : d.coefficient ≠ 0) (p : ℤ) :
    d.point ≤ p ↔ d.value < 10 ^ p := by
  have hone : (1 : ℚ) ≤ d.coefficient := by exact_mod_cast Nat.pos_of_ne_zero h
  have hpow : (0 : ℚ) < 10 ^ d.exponent := by positivity
  have hlen : 0 < (digitsOf d.coefficient).length := Nat.length_toDigits_pos
  unfold point value
  rcases le_or_gt p d.exponent with hle | hlt
  · -- a power no greater than the last digit's is no greater than the number
    have hgreat : (10 : ℚ) ^ p ≤ d.coefficient * 10 ^ d.exponent :=
      calc (10 : ℚ) ^ p ≤ 10 ^ d.exponent := zpow_le_zpow_right₀ (by norm_num) hle
        _ = 1 * 10 ^ d.exponent := (one_mul _).symm
        _ ≤ d.coefficient * 10 ^ d.exponent := mul_le_mul_of_nonneg_right hone hpow.le
    constructor
    · intro hpoint
      omega
    · intro hless
      exact absurd hless (not_lt.2 hgreat)
  · obtain ⟨k, rfl⟩ := Int.le.dest hlt.le
    have hk : 0 < k := by omega
    have hdigits := Nat.length_toDigits_le_iff (b := 10) (n := d.coefficient) (by decide) hk
    rw [zpow_add₀ (by norm_num), mul_comm (10 ^ d.exponent : ℚ), mul_lt_mul_iff_left₀ hpow,
      zpow_natCast]
    have hcast : ((d.coefficient : ℚ) < 10 ^ k) ↔ d.coefficient < 10 ^ k := by exact_mod_cast Iff.rfl
    rw [hcast, ← hdigits]
    unfold digitsOf
    omega

theorem point_congr {d e : Decimal} (hd : d.coefficient ≠ 0) (h : d.value = e.value) :
    d.point = e.point := by
  have he : e.coefficient ≠ 0 := by rwa [ne_eq, ← value_eq_zero_iff, ← h, value_eq_zero_iff]
  apply le_antisymm
  · rw [point_le_iff hd, h, ← point_le_iff he]
  · rw [point_le_iff he, ← h, ← point_le_iff hd]

/-! ## The double of a decimal -/

/-- A decimal as a quotient. -/
theorem value_eq_div (d : Decimal) :
    d.value = ((d.coefficient * 10 ^ d.exponent.toNat : ℕ) : ℚ) /
      ((10 ^ (-d.exponent).toNat : ℕ) : ℚ) := by
  unfold value
  push_cast
  rcases le_total 0 d.exponent with h | h
  · obtain ⟨k, hk⟩ := Int.eq_ofNat_of_zero_le h
    simp [hk]
  · obtain ⟨k, hk⟩ := Int.eq_ofNat_of_zero_le (Int.neg_nonneg_of_nonpos h)
    have he : d.exponent = -(k : ℤ) := by omega
    simp [he, div_eq_mul_inv]

/-- In range, a decimal's double is found from that quotient. -/
theorem toBinary64_of_mem_range (negative : Bool) {d : Decimal} (h : d.coefficient ≠ 0)
    (hlow : -330 ≤ d.point) (hhigh : d.point ≤ 310) :
    d.toBinary64 negative =
      .ofRatio negative (d.coefficient * 10 ^ d.exponent.toNat) (10 ^ (-d.exponent).toNat) := by
  unfold toBinary64
  rw [if_neg (by omega), if_neg (by omega), Nat.pow_eq, Nat.pow_eq]
  split
  · have hz : (-d.exponent).toNat = 0 := by omega
    rw [hz, pow_zero]
  · have hz : d.exponent.toNat = 0 := by omega
    rw [hz, pow_zero, Nat.mul_one]

/-- **A decimal's double depends on its worth alone.** -/
theorem toBinary64_congr (negative : Bool) {d e : Decimal} (h : d.value = e.value) :
    d.toBinary64 negative = e.toBinary64 negative := by
  rcases eq_or_ne d.coefficient 0 with hd | hd
  · have he : e.coefficient = 0 := by rwa [← value_eq_zero_iff, ← h, value_eq_zero_iff]
    simp [toBinary64, hd, he]
  have he : e.coefficient ≠ 0 := by rwa [ne_eq, ← value_eq_zero_iff, ← h, value_eq_zero_iff]
  have hpoint := point_congr hd h
  rcases lt_or_ge d.point (-330) with hlow | hlow
  · unfold toBinary64
    rw [if_pos (Or.inr hlow), if_pos (Or.inr (hpoint ▸ hlow))]
  rcases lt_or_ge 310 d.point with hhigh | hhigh
  · unfold toBinary64
    rw [if_neg (by omega), if_pos hhigh, if_neg (by omega), if_pos (hpoint ▸ hhigh)]
  rw [toBinary64_of_mem_range negative hd hlow hhigh,
    toBinary64_of_mem_range negative he (hpoint ▸ hlow) (hpoint ▸ hhigh)]
  rw [value_eq_div, value_eq_div, div_eq_div_iff (by positivity) (by positivity), ← Nat.cast_mul,
    ← Nat.cast_mul, Nat.cast_inj] at h
  unfold Binary64.ofRatio
  generalize unitsPerOne = one
  apply Binary64.ofUnits_congr negative (by positivity) (by positivity)
  rw [Nat.mul_right_comm, h, Nat.mul_right_comm]

/-- The sign is carried along. -/
theorem toBinary64_of_finite {d : Decimal} {s : Bool} {u : ℕ} {h : IsRepresentable u}
    (hd : d.toBinary64 false = .finite s u h) (t : Bool) : d.toBinary64 t = .finite t u h := by
  unfold toBinary64 Binary64.ofRatio Binary64.ofUnits at hd ⊢
  split at hd
  · cases hd
    rw [if_pos ‹_›, Binary64.signedZero]
  rw [if_neg ‹_›]
  split at hd
  · cases hd
  rw [if_neg ‹_›]
  split at hd
  · rw [if_pos ‹_›]
    split at hd
    · cases hd
      rw [dif_pos ‹_›]
    · cases hd
  · rw [if_neg ‹_›]
    split at hd
    · cases hd
      rw [dif_pos ‹_›]
    · cases hd

/-! ## The shortest decimal -/

theorem scaledByTen_eq (u : ℕ) : scaledByTen u = u * 5 ^ 1074 := by
  unfold scaledByTen
  generalize (1074 : ℕ) = k
  rw [Nat.pow_eq]

theorem scaledByTen_ne_zero {u : ℕ} (hu : u ≠ 0) : scaledByTen u ≠ 0 := by
  rw [scaledByTen_eq]
  exact Nat.mul_ne_zero hu (pow_ne_zero _ (by norm_num))

theorem value_exact (u : ℕ) : (exact u).value = u / 2 ^ 1074 := by
  have hten : (10 : ℚ) ^ 1074 = 2 ^ 1074 * 5 ^ 1074 := by rw [← mul_pow]; norm_num
  have hfive : (5 : ℚ) ^ 1074 ≠ 0 := pow_ne_zero _ (by norm_num)
  unfold value exact
  rw [scaledByTen_eq, zpow_neg, show (1074 : ℤ) = ((1074 : ℕ) : ℤ) from rfl, zpow_natCast, hten]
  generalize (1074 : ℕ) = k at *
  push_cast
  field_simp

/-- A positive double has its point far inside the range that is read. -/
theorem point_exact_mem_range {u : ℕ} (h : IsRepresentable u) (hu : u ≠ 0) :
    -330 ≤ (exact u).point ∧ (exact u).point ≤ 310 := by
  have hcoefficient : (exact u).coefficient ≠ 0 := scaledByTen_ne_zero hu
  have hunit : (0 : ℚ) < 2 ^ 1074 := by positivity
  constructor
  · rw [← not_lt, ← Int.le_sub_one_iff, point_le_iff hcoefficient, value_exact, not_lt,
      le_div_iff₀ hunit]
    have hleast : 2 ^ 1074 ≤ 10 ^ 331 * u :=
      le_trans (by decide +kernel) (Nat.mul_le_mul_left _ (Nat.pos_of_ne_zero hu))
    rw [show (-330 - 1 : ℤ) = -((331 : ℕ) : ℤ) from rfl, zpow_neg, zpow_natCast,
      inv_mul_le_iff₀ (by positivity)]
    exact_mod_cast hleast
  · rw [point_le_iff hcoefficient, value_exact, div_lt_iff₀ hunit]
    have hlimit : u < 10 ^ 310 * 2 ^ 1074 := lt_of_lt_of_le h.1 (by decide +kernel)
    exact_mod_cast hlimit

/-- All digits of a double read back. -/
theorem toBinary64_exact {u : ℕ} (h : IsRepresentable u) (hu : u ≠ 0) (s : Bool) :
    (exact u).toBinary64 s = .finite s u h := by
  have hcoefficient : (exact u).coefficient ≠ 0 := scaledByTen_ne_zero hu
  obtain ⟨hlow, hhigh⟩ := point_exact_mem_range h hu
  have hraised : (exact u).exponent.toNat = 0 := rfl
  have hlowered : (-(exact u).exponent).toNat = 1074 := rfl
  have hnum : (exact u).coefficient * 10 ^ 0 * unitsPerOne = u * 10 ^ 1074 := by
    rw [exact, scaledByTen_eq, unitsPerOne, Nat.shiftLeft_eq]
    generalize (1074 : ℕ) = k
    rw [pow_zero, Nat.mul_one, Nat.one_mul, Nat.mul_assoc, ← Nat.mul_pow]
  rw [toBinary64_of_mem_range s hcoefficient hlow hhigh, Binary64.ofRatio, hraised, hlowered, hnum,
    Binary64.ofUnits_mul s h (by positivity)]

theorem toBinary64_of_readsBack {u : ℕ} (h : IsRepresentable u) {d : Decimal}
    (hd : Shortest.readsBack u d = true) (s : Bool) : d.toBinary64 s = .finite s u h := by
  unfold Shortest.readsBack at hd
  split at hd
  · next t v hv heq =>
    obtain rfl := of_decide_eq_true hd
    exact toBinary64_of_finite heq s
  · cases hd

/-- A neighbour is taken only if it reads back. -/
theorem readsBack_of_eitherBack? {u : ℕ} {preferLower : Bool} {lower upper d : Decimal}
    (h : Shortest.eitherBack? u preferLower lower upper = some d) :
    Shortest.readsBack u d = true := by
  unfold Shortest.eitherBack? at h
  split at h
  · obtain rfl := Option.some.inj h
    split <;> assumption
  · obtain rfl := Option.some.inj h
    assumption
  · obtain rfl := Option.some.inj h
    assumption
  · cases h

theorem readsBack_of_withDigits? {u count : ℕ} {d : Decimal}
    (h : Shortest.withDigits? u count = some d) : Shortest.readsBack u d = true := by
  unfold Shortest.withDigits? at h
  exact readsBack_of_eitherBack? h

/-- **The shortest decimal reads back** as the double it was written
for. -/
theorem toBinary64_shortest {u : ℕ} (h : IsRepresentable u) (hu : u ≠ 0) (s : Bool) :
    (shortest u).toBinary64 s = .finite s u h := by
  unfold shortest
  cases hfound : (List.range 17).findSome? fun i => Shortest.withDigits? u (i + 1) with
  | none => exact toBinary64_exact h hu s
  | some d =>
    obtain ⟨i, -, hd⟩ := List.exists_of_findSome?_eq_some hfound
    exact toBinary64_of_readsBack h (readsBack_of_withDigits? hd) s

theorem coefficient_shortest_ne_zero {u : ℕ} (h : IsRepresentable u) (hu : u ≠ 0) :
    (shortest u).coefficient ≠ 0 := by
  intro hz
  have hread := toBinary64_shortest h hu false
  rw [toBinary64, if_pos (Or.inl hz), Binary64.signedZero] at hread
  cases hread
  exact hu rfl

end Decimal

end KnowledgeGraph
