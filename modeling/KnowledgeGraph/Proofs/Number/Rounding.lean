import KnowledgeGraph.Number.Binary64
import Mathlib.Data.Nat.Log
import Mathlib.Tactic.Ring
/-!
# Rounding

Two laws of `ofUnits`, the one rounding that every operation on doubles
ends with. It keeps order: a greater quotient never has a lesser double
(`nearestUnits_le_nearestUnits`). And it leaves a double as it is
(`nearestUnits_mul`). Since order decides, rounding depends on the
quotient alone and not on how it is written (`ofUnits_congr`).
-/

namespace KnowledgeGraph

namespace Binary64

variable {num den num' den' : ℕ}

/-! ## The nearest natural number -/

/-- The three ways to round: down from less than a half, up from more,
and from a half to whichever number is even. -/
theorem roundDiv_cases (num den : ℕ) :
    (roundDiv num den = num / den ∧ 2 * (num % den) < den) ∨
      (roundDiv num den = num / den + 1 ∧ den < 2 * (num % den)) ∨
      (2 * (num % den) = den ∧ roundDiv num den % 2 = 0 ∧
        (roundDiv num den = num / den ∨ roundDiv num den = num / den + 1)) := by
  unfold roundDiv
  dsimp only
  split
  · exact Or.inl ⟨rfl, ‹_›⟩
  · split
    · exact Or.inr (Or.inl ⟨rfl, ‹_›⟩)
    · have hhalf : 2 * (num % den) = den := by omega
      split
      · exact Or.inr (Or.inr ⟨hhalf, ‹_›, Or.inl rfl⟩)
      · exact Or.inr (Or.inr ⟨hhalf, by omega, Or.inr rfl⟩)

/-- **A rounded quotient is off by a half at most**, on either side, and
by a half only if it is even. -/
theorem roundDiv_spec (num : ℕ) (hd : 0 < den) :
    2 * (den * roundDiv num den) ≤ 2 * num + den ∧
      2 * num ≤ 2 * (den * roundDiv num den) + den ∧
      (2 * (den * roundDiv num den) = 2 * num + den ∨
        2 * num = 2 * (den * roundDiv num den) + den → roundDiv num den % 2 = 0) := by
  have hnum := Nat.div_add_mod num den
  have hlt := Nat.mod_lt num hd
  rcases roundDiv_cases num den with ⟨h, hrest⟩ | ⟨h, hrest⟩ | ⟨hrest, heven, h | h⟩
  · rw [h]
    omega
  · rw [h, Nat.mul_add]
    omega
  · rw [h] at heven ⊢
    omega
  · rw [h] at heven ⊢
    rw [Nat.mul_add]
    omega

/-- A whole quotient stays. -/
theorem roundDiv_mul_right (n : ℕ) (hd : 0 < den) : roundDiv (n * den) den = n := by
  unfold roundDiv
  simp [Nat.mul_div_cancel n hd, hd]

theorem roundDiv_zero (hd : 0 < den) : roundDiv 0 den = 0 := by
  have hzero := roundDiv_mul_right 0 hd
  rwa [Nat.zero_mul] at hzero

/-- **A greater quotient never has a lesser nearest number.** Were it
lesser by one, both quotients would be the half between the two numbers,
and of these only one is even. -/
theorem roundDiv_le_roundDiv (hd : 0 < den) (hd' : 0 < den') (h : num * den' ≤ num' * den) :
    roundDiv num den ≤ roundDiv num' den' := by
  by_contra hlt
  rw [Nat.not_le] at hlt
  obtain ⟨hup, -, hhalf⟩ := roundDiv_spec num hd
  obtain ⟨-, hdown, hhalf'⟩ := roundDiv_spec num' hd'
  generalize roundDiv num den = m at *
  generalize roundDiv num' den' = m' at *
  -- both bounds over the common denominator
  have hup' := Nat.mul_le_mul_right den' hup
  have hdown' := Nat.mul_le_mul_right den hdown
  have hgap := Nat.mul_le_mul_left (den * den') (Nat.succ_le_of_lt hlt)
  have hpos : 0 < den * den' := Nat.mul_pos hd hd'
  have e : 2 * (den * m) * den' = 2 * (den * den' * m) := by ring
  have e' : (2 * (den' * m') + den') * den = 2 * (den * den' * m') + den * den' := by ring
  have e₁ : (2 * num + den) * den' = 2 * (num * den') + den * den' := by ring
  have e₂ : 2 * num' * den = 2 * (num' * den) := by ring
  have e₃ : den * den' * m'.succ = den * den' * m' + den * den' := by rw [Nat.mul_succ]
  -- so everything between the two bounds is equal
  have tie : num * den' = num' * den := by omega
  have hm : den * den' * m = den * den' * m' + den * den' := by omega
  have hsucc : m = m' + 1 := by
    apply Nat.eq_of_mul_eq_mul_left hpos
    rw [hm, Nat.mul_succ]
  have heven := hhalf (Or.inl (Nat.eq_of_mul_eq_mul_right hd' (by omega)))
  have heven' := hhalf' (Or.inr (Nat.eq_of_mul_eq_mul_right hd (by omega)))
  omega

/-! ## The nearest double -/

theorem nearestUnits_eq (num den : ℕ) :
    nearestUnits num den =
      roundDiv num (den * 2 ^ lastPlace num den) * 2 ^ lastPlace num den := by
  simp only [nearestUnits, Nat.shiftLeft_eq]

theorem nearestUnits_zero {den : ℕ} (hd : 0 < den) : nearestUnits 0 den = 0 := by
  rw [nearestUnits_eq, roundDiv_zero (Nat.mul_pos hd (Nat.two_pow_pos _)), Nat.zero_mul]

/-- **The place of a rounded quotient.** Out of range it is the place of
the infinities. -/
theorem key_ofUnits (negative : Bool) (num den : ℕ) :
    (ofUnits negative num den).key =
      some (signed negative (min (nearestUnits num den) unitLimit)) := by
  unfold ofUnits
  split
  · rw [key, min_eq_left (Nat.le_of_lt ‹_›)]
  · rw [key, min_eq_right (Nat.not_lt.1 ‹_›)]

theorem lastPlace_le_lastPlace (h : num / den ≤ num' / den') :
    lastPlace num den ≤ lastPlace num' den' := by
  unfold lastPlace
  rw [Nat.log2_eq_log_two, Nat.log2_eq_log_two]
  exact Nat.sub_le_sub_right (Nat.log_mono_right h) 52

/-- Above the least place a quotient keeps all of its 53 digits. -/
theorem le_roundDiv_of_lastPlace_pos (h : 0 < lastPlace num den) :
    2 ^ 52 ≤ roundDiv num (den * 2 ^ lastPlace num den) := by
  refine le_trans ?_ (div_le_roundDiv _ _)
  have hne : num / den ≠ 0 := by
    rintro hz
    simp [lastPlace, hz] at h
  rw [← Nat.div_div_eq_div_mul, Nat.le_div_iff_mul_le (Nat.two_pow_pos _), ← Nat.pow_add]
  refine le_trans (Nat.pow_le_pow_right (by decide) ?_) (Nat.log2_self_le hne)
  unfold lastPlace at h ⊢
  omega

/-- **Rounding keeps order.** At one last place the nearest multiples
compare as the quotients do; from a place to a higher one there is a
power of two between the two doubles. -/
theorem nearestUnits_le_nearestUnits (hd : 0 < den) (hd' : 0 < den')
    (h : num * den' ≤ num' * den) : nearestUnits num den ≤ nearestUnits num' den' := by
  have hdiv : num / den ≤ num' / den' := by
    rw [Nat.le_div_iff_mul_le hd']
    apply Nat.le_of_mul_le_mul_right _ hd
    calc num / den * den' * den = num / den * den * den' := by ring
      _ ≤ num * den' := Nat.mul_le_mul_right _ (Nat.div_mul_le_self num den)
      _ ≤ num' * den := h
  rw [nearestUnits_eq, nearestUnits_eq]
  rcases Nat.lt_or_eq_of_le (lastPlace_le_lastPlace hdiv) with hlt | heq
  · have hlow : roundDiv num (den * 2 ^ lastPlace num den) ≤ 2 ^ 53 := by
      rw [← Nat.shiftLeft_eq]
      exact le_trans (roundDiv_le _ _) (div_lastPlace_lt num den)
    have hhigh := le_roundDiv_of_lastPlace_pos (Nat.lt_of_le_of_lt (Nat.zero_le _) hlt)
    calc roundDiv num (den * 2 ^ lastPlace num den) * 2 ^ lastPlace num den
        ≤ 2 ^ 53 * 2 ^ lastPlace num den := Nat.mul_le_mul_right _ hlow
      _ = 2 ^ (53 + lastPlace num den) := (Nat.pow_add ..).symm
      _ ≤ 2 ^ (52 + lastPlace num' den') := Nat.pow_le_pow_right (by decide) (by omega)
      _ = 2 ^ 52 * 2 ^ lastPlace num' den' := Nat.pow_add ..
      _ ≤ _ := Nat.mul_le_mul_right _ hhigh
  · rw [heq]
    apply Nat.mul_le_mul_right
    have hpow := Nat.two_pow_pos (lastPlace num' den')
    apply roundDiv_le_roundDiv (Nat.mul_pos hd hpow) (Nat.mul_pos hd' hpow)
    calc num * (den' * 2 ^ lastPlace num' den')
        = num * den' * 2 ^ lastPlace num' den' := (Nat.mul_assoc ..).symm
      _ ≤ num' * den * 2 ^ lastPlace num' den' := Nat.mul_le_mul_right _ h
      _ = num' * (den * 2 ^ lastPlace num' den') := Nat.mul_assoc ..

/-- **Rounding depends on the quotient alone.** -/
theorem ofUnits_congr (negative : Bool) (hd : 0 < den) (hd' : 0 < den')
    (h : num * den' = num' * den) : ofUnits negative num den = ofUnits negative num' den' := by
  have heq : nearestUnits num den = nearestUnits num' den' :=
    le_antisymm (nearestUnits_le_nearestUnits hd hd' h.le)
      (nearestUnits_le_nearestUnits hd' hd h.ge)
  unfold ofUnits
  simp only [heq]

/-- **A double is its own rounding.** -/
theorem nearestUnits_mul {units : ℕ} (h : IsRepresentable units) (hd : 0 < den) :
    nearestUnits (units * den) den = units := by
  have hplace : lastPlace (units * den) den = units.log2 - 52 := by
    rw [lastPlace, Nat.mul_div_cancel units hd]
  rw [nearestUnits_eq, hplace]
  obtain ⟨n, hn⟩ := h.2
  rw [Nat.shiftLeft_eq, Nat.one_mul] at hn
  generalize hk : 2 ^ (units.log2 - 52) = k at *
  have hpos : 0 < den * k := Nat.mul_pos hd (hk ▸ Nat.two_pow_pos _)
  have hquotient : units * den = n * (den * k) := by rw [hn]; ring
  rw [hquotient, roundDiv_mul_right n hpos, hn, Nat.mul_comm]

/-- So the double of a representable number of units is found from any
way to write the number. -/
theorem ofUnits_mul {units : ℕ} (negative : Bool) (h : IsRepresentable units) (hd : 0 < den) :
    ofUnits negative (units * den) den = .finite negative units h := by
  unfold ofUnits
  simp only [nearestUnits_mul h hd, h.1, dite_true]

end Binary64

end KnowledgeGraph
