import KnowledgeGraph.Proofs.Number.Order
/-!
# Products of doubles from zero on

The product of two finite doubles from zero on has its place where the
exact product does, rounded (`key_mul`). So it grows with both factors
(`mul_le_mul`), and a factor of at most one never makes it greater
(`mul_le_self`). The whole number nearest to a double grows with it too
(`round?_le_round?`).
-/

namespace KnowledgeGraph

namespace Binary64

variable {x y z x' y' : Binary64}

/-! ## Units -/

/-- A double from zero on is a number of units from zero. -/
theorem exists_units (hx : zero ≤ x) : ∃ u : ℕ, x.key = some (u : ℤ) := by
  obtain ⟨a, ha⟩ := exists_key hx
  have hpos := nonneg_of_key hx ha
  exact ⟨a.toNat, by rw [ha, Int.toNat_of_nonneg hpos]⟩

/-- What is between zero and a finite double is finite. -/
theorem isFinite_of_le (hx : zero ≤ x) (h : x ≤ y) (hy : y.isFinite) : x.isFinite := by
  refine (eq_infinite_or_isFinite hx).resolve_left ?_
  rintro rfl
  obtain ⟨a, b, ha, hb, hab⟩ := le_iff.1 h
  obtain rfl : (unitLimit : ℤ) = a := Option.some.inj ha
  cases y with
  | finite t v hv =>
    obtain rfl : signed t v = b := Option.some.inj hb
    have hlt := hv.1
    unfold signed at hab
    split at hab <;> omega
  | _ => simp [isFinite] at hy

theorem le_total_of_isFinite (hx : x.isFinite) (hy : y.isFinite) : x ≤ y ∨ y ≤ x := by
  obtain ⟨a, ha⟩ := Option.isSome_iff_exists.1 (isSome_key_of_isFinite hx)
  obtain ⟨b, hb⟩ := Option.isSome_iff_exists.1 (isSome_key_of_isFinite hy)
  exact (le_total a b).imp (fun h => le_iff.2 ⟨a, b, ha, hb, h⟩) fun h => le_iff.2 ⟨b, a, hb, ha, h⟩

/-- The sign of a finite double from zero on is seen at zero only. -/
theorem units_of_key {s : Bool} {u a : ℕ} {hu : IsRepresentable u}
    (h : (finite s u hu).key = some (a : ℤ)) : u = a ∧ (s = true → u = 0) := by
  cases s with
  | false =>
    have hunits : (u : ℤ) = a := Option.some.inj h
    exact ⟨Int.ofNat.inj hunits, fun hs => by cases hs⟩
  | true =>
    have hunits : -(u : ℤ) = a := Option.some.inj h
    omega

/-! ## Products -/

/-- **The place of a product from zero on** is that of the exact product,
rounded. -/
theorem key_mul (hx : x.isFinite) (hy : y.isFinite) {a b : ℕ} (ha : x.key = some (a : ℤ))
    (hb : y.key = some (b : ℤ)) :
    (x * y).key = some ((min (nearestUnits (a * b) unitsPerOne) unitLimit : ℕ) : ℤ) := by
  cases x with
  | finite s u hu =>
    cases y with
    | finite t v hv =>
      obtain ⟨rfl, hs⟩ := units_of_key ha
      obtain ⟨rfl, ht⟩ := units_of_key hb
      refine (key_ofUnits (s != t) (u * v) unitsPerOne).trans (congrArg some ?_)
      by_cases hsign : (s != t) = true
      · -- only a factor of zero has the other sign
        have hzero : u * v = 0 := by
          cases s with
          | true => rw [hs rfl, Nat.zero_mul]
          | false =>
            cases t with
            | true => rw [ht rfl, Nat.mul_zero]
            | false => cases hsign
        rw [hzero, nearestUnits_zero unitsPerOne_pos, Nat.zero_min, signed_zero,
          Int.ofNat_zero]
      · rw [Bool.not_eq_true] at hsign
        rw [hsign]
        rfl
    | _ => simp [isFinite] at hy
  | _ => simp [isFinite] at hx

theorem key_one : one.key = some (unitsPerOne : ℤ) := by
  obtain ⟨_, h⟩ := exists_one_eq
  rw [h]
  rfl

theorem isFinite_one : one.isFinite := by
  obtain ⟨_, h⟩ := exists_one_eq
  rw [h]
  rfl

/-- No other double stands where the number one does. -/
theorem eq_one_of_key (h : x.key = some (unitsPerOne : ℤ)) : x = one := by
  have hpos := unitsPerOne_pos
  cases x with
  | nan => cases h
  | infinite s =>
    have hunits : signed s unitLimit = unitsPerOne := Option.some.inj h
    obtain ⟨⟨hlt, -⟩, -⟩ := exists_one_eq
    cases s <;> simp [signed] at hunits <;> omega
  | finite s u hu =>
    have hunits : signed s u = unitsPerOne := Option.some.inj h
    cases s with
    | true =>
      simp [signed] at hunits
      omega
    | false =>
      obtain rfl : u = unitsPerOne := Int.ofNat.inj hunits
      exact exists_one_eq.elim fun _ h => h.symm

/-- A factor of one changes nothing. -/
protected theorem mul_one (x : Binary64) : x * one = x := by
  obtain ⟨hone, h⟩ := exists_one_eq
  rw [h]
  cases x with
  | nan => rfl
  | infinite s =>
    show (if unitsPerOne = 0 then nan else infinite (s != false)) = infinite s
    rw [if_neg unitsPerOne_pos.ne', Bool.bne_false]
  | finite s u hu =>
    show ofUnits (s != false) (u * unitsPerOne) unitsPerOne = finite s u hu
    rw [Bool.bne_false]
    exact ofUnits_mul s hu unitsPerOne_pos

theorem nonneg_mul (hx : zero ≤ x) (hy : zero ≤ y) (hfinite : x.isFinite) (hfinite' : y.isFinite) :
    zero ≤ x * y := by
  obtain ⟨a, ha⟩ := exists_units hx
  obtain ⟨b, hb⟩ := exists_units hy
  exact le_iff.2 ⟨0, _, rfl, key_mul hfinite hfinite' ha hb, Int.natCast_nonneg _⟩

/-- **A product grows with its factors.** -/
theorem mul_le_mul (hx : zero ≤ x) (hy : zero ≤ y) (h : x ≤ x') (h' : y ≤ y')
    (hx' : x'.isFinite) (hy' : y'.isFinite) : x * y ≤ x' * y' := by
  have hfinite := isFinite_of_le hx h hx'
  have hfinite' := isFinite_of_le hy h' hy'
  obtain ⟨a, ha⟩ := exists_units hx
  obtain ⟨b, hb⟩ := exists_units hy
  obtain ⟨a', ha'⟩ := exists_units (Binary64.le_trans hx h)
  obtain ⟨b', hb'⟩ := exists_units (Binary64.le_trans hy h')
  have hle : a ≤ a' := by simpa [le_iff, ha, ha'] using h
  have hle' : b ≤ b' := by simpa [le_iff, hb, hb'] using h'
  refine le_iff.2 ⟨_, _, key_mul hfinite hfinite' ha hb, key_mul hx' hy' ha' hb', ?_⟩
  refine Int.ofNat_le.2 (min_le_min_right _ ?_)
  refine nearestUnits_le_nearestUnits unitsPerOne_pos unitsPerOne_pos ?_
  exact Nat.mul_le_mul_right _ (Nat.mul_le_mul hle hle')

/-- **A factor of at most one makes nothing greater.** -/
theorem mul_le_self (hx : zero ≤ x) (hy : zero ≤ y) (hfinite : x.isFinite) (h : y ≤ one) :
    x * y ≤ x := by
  obtain ⟨a, ha⟩ := exists_units hx
  obtain ⟨b, hb⟩ := exists_units hy
  have hle : b ≤ unitsPerOne := by simpa [le_iff, hb, key_one] using h
  refine le_iff.2 ⟨_, _, key_mul hfinite (isFinite_of_le hy h isFinite_one) ha hb, ha, ?_⟩
  refine Int.ofNat_le.2 (le_trans (min_le_left _ _) ?_)
  cases x with
  | finite s u hu =>
    obtain ⟨rfl, -⟩ := units_of_key ha
    calc nearestUnits (u * b) unitsPerOne
        ≤ nearestUnits (u * unitsPerOne) unitsPerOne :=
          nearestUnits_le_nearestUnits unitsPerOne_pos unitsPerOne_pos
            (Nat.mul_le_mul_right _ (Nat.mul_le_mul_left _ hle))
      _ = u := nearestUnits_mul hu unitsPerOne_pos
  | _ => simp [isFinite] at hfinite

/-! ## The nearest whole number -/

theorem round?_of_key (hx : x.isFinite) {a : ℕ} (ha : x.key = some (a : ℤ)) :
    x.round? = some (roundDiv a unitsPerOne : ℤ) := by
  cases x with
  | finite s u hu =>
    obtain ⟨rfl, hs⟩ := units_of_key ha
    refine congrArg some ?_
    cases s with
    | false => rfl
    | true =>
      rw [hs rfl, roundDiv_zero unitsPerOne_pos]
      rfl
  | _ => simp [isFinite] at hx

/-- **A greater double is never nearest to a lesser number.** -/
theorem round?_le_round? (hx : zero ≤ x) (h : x ≤ y) (hy : y.isFinite) :
    ∃ m n : ℤ, x.round? = some m ∧ y.round? = some n ∧ m ≤ n := by
  obtain ⟨a, ha⟩ := exists_units hx
  obtain ⟨b, hb⟩ := exists_units (Binary64.le_trans hx h)
  have hle : a ≤ b := by simpa [le_iff, ha, hb] using h
  refine ⟨_, _, round?_of_key (isFinite_of_le hx h hy) ha, round?_of_key hy hb, ?_⟩
  exact Int.ofNat_le.2 (roundDiv_le_roundDiv unitsPerOne_pos unitsPerOne_pos
    (Nat.mul_le_mul_right _ hle))

/-- The double of a positive integer is finite and from zero on. -/
theorem ofInt?_spec {n : ℤ} (hn : 0 < n) (h : ofInt? n = some x) : zero ≤ x ∧ x.isFinite := by
  have hnonneg : zero ≤ ofRatio (decide (n < 0)) n.natAbs 1 := by
    rw [decide_eq_false hn.le.not_gt]
    exact le_of_lt (zero_lt_ofRatio (Int.natAbs_pos.2 hn.ne'))
  -- unfolded at `n`, the kernel would round a number it does not know
  obtain ⟨f, hf⟩ : ∃ f, f = ofInt? := ⟨_, rfl⟩
  rw [← hf] at h
  delta ofInt? at hf
  rw [hf] at h
  beta_reduce at h
  generalize ofRatio (decide (n < 0)) n.natAbs 1 = y at h hnonneg
  cases y with
  | nan => exact absurd hnonneg (by decide)
  | infinite s => cases h
  | finite s u hu =>
    obtain rfl := Option.some.inj h
    exact ⟨hnonneg, rfl⟩

/-! ## The greater and the lesser -/

theorem maximum_le_maximum (hx : zero ≤ x) (hz : zero ≤ z) (h : x ≤ y) :
    maximum x z ≤ maximum y z := by
  have hy := Binary64.le_trans hx h
  unfold maximum
  split
  · split
    · exact le_refl_of_nonneg hz
    · exact le_of_not_lt hy hz ‹_›
  · split
    · exact Binary64.le_trans h (le_of_lt ‹_›)
    · exact h

theorem minimum_le_minimum (hx : zero ≤ x) (hz : zero ≤ z) (h : x ≤ y) :
    minimum z x ≤ minimum z y := by
  have hy := Binary64.le_trans hx h
  unfold minimum
  split
  · split
    · exact h
    · exact le_of_lt ‹_›
  · split
    · exact Binary64.le_trans (le_of_not_lt hx hz ‹_›) h
    · exact le_refl_of_nonneg hz

end Binary64

end KnowledgeGraph
