/-!
# Binary64 — double precision numbers, exactly

A finite double is a sign and a whole number of units of `2^-1074`, the
least positive double. Every operation is therefore its exact result,
computed on integers, followed by one rounding (`ofUnits`), and two
doubles compare as their units do (`key`).

A number of units is a double only if its first 53 binary digits carry
it all (`IsRepresentable`). The type keeps that, so a double has one
form; what rounding yields has it too (`isRepresentable_nearestUnits`).
-/

namespace KnowledgeGraph

/-- The units in the number one. -/
def unitsPerOne : Nat := 1 <<< 1074

/-- The units in `2^1024`, where the range of doubles ends. -/
def unitLimit : Nat := 1 <<< 2098

theorem one_shiftLeft_pos (n : Nat) : 0 < 1 <<< n := by
  rw [Nat.shiftLeft_eq, Nat.one_mul]
  exact Nat.two_pow_pos n

theorem unitsPerOne_pos : 0 < unitsPerOne := one_shiftLeft_pos 1074

theorem unitLimit_pos : 0 < unitLimit := one_shiftLeft_pos 2098

/-- Some double is `units · 2^-1074`: nothing is set below the first 53
binary digits, and the number is in range. -/
def IsRepresentable (units : Nat) : Prop :=
  units < unitLimit ∧ 1 <<< (units.log2 - 52) ∣ units

instance (units : Nat) : Decidable (IsRepresentable units) :=
  inferInstanceAs (Decidable (_ ∧ _))

/-- A double precision number: not a number, an infinity, or a signed
count of units of `2^-1074`. Zero has two signs. -/
inductive Binary64 where
  | nan
  | infinite (negative : Bool)
  | finite (negative : Bool) (units : Nat) (representable : IsRepresentable units)
deriving DecidableEq

namespace Binary64

/-! ## Rounding -/

/-- `num / den` to the nearest natural number, a half to the even one. -/
def roundDiv (num den : Nat) : Nat :=
  let below := num / den
  let rest := num % den
  -- the rest against half the divisor, without dividing again
  if 2 * rest < den then below
  else if den < 2 * rest then below + 1
  else if below % 2 = 0 then below
  else below + 1

/-- What is cut off counts for one or for nothing. -/
theorem roundDiv_eq_or (num den : Nat) :
    roundDiv num den = num / den ∨ roundDiv num den = num / den + 1 := by
  unfold roundDiv
  dsimp only
  split
  · exact Or.inl rfl
  · split
    · exact Or.inr rfl
    · split
      · exact Or.inl rfl
      · exact Or.inr rfl

theorem roundDiv_le (num den : Nat) : roundDiv num den ≤ num / den + 1 := by
  rcases roundDiv_eq_or num den with h | h <;> omega

theorem div_le_roundDiv (num den : Nat) : num / den ≤ roundDiv num den := by
  rcases roundDiv_eq_or num den with h | h <;> omega

/-- The place of the last binary digit a double keeps of `num / den`. -/
def lastPlace (num den : Nat) : Nat := (num / den).log2 - 52

/-- The units of the double nearest to `num / den` units, had the range
no end. -/
def nearestUnits (num den : Nat) : Nat :=
  roundDiv num (den <<< lastPlace num den) <<< lastPlace num den

/-- A significand of at most `2^53` has nothing below its first 53
digits at any scale: a carry to `2^53` only moves its one bit up. -/
theorem shiftLeft_log2_dvd {m k : Nat} (h : m ≤ 1 <<< 53) :
    1 <<< ((m <<< k).log2 - 52) ∣ m <<< k := by
  simp only [Nat.shiftLeft_eq, Nat.one_mul] at h ⊢
  rcases Nat.eq_zero_or_pos m with rfl | hm
  · simp
  rcases Nat.lt_or_eq_of_le h with hlt | rfl
  · have hpow := Nat.two_pow_pos k
    have hlog : (m * 2 ^ k).log2 < 53 + k := by
      rw [Nat.log2_lt (Nat.ne_of_gt (Nat.mul_pos hm hpow)), Nat.pow_add]
      exact Nat.mul_lt_mul_of_pos_right hlt hpow
    exact Nat.dvd_trans (Nat.pow_dvd_pow 2 (by omega)) (Nat.dvd_mul_left _ _)
  · rw [← Nat.pow_add, Nat.log2_two_pow]
    exact Nat.pow_dvd_pow 2 (by omega)

/-- Cut off at the last place, at most 53 digits are left. -/
theorem div_lastPlace_lt (num den : Nat) :
    num / (den <<< lastPlace num den) < 1 <<< 53 := by
  simp only [Nat.shiftLeft_eq, Nat.one_mul]
  rw [← Nat.div_div_eq_div_mul]
  have h : num / den < 2 ^ ((num / den).log2 + 1) := Nat.lt_log2_self
  apply Nat.div_lt_of_lt_mul
  rw [← Nat.pow_add]
  exact Nat.lt_of_lt_of_le h (Nat.pow_le_pow_right (by decide) (by unfold lastPlace; omega))

/-- **What rounding yields is representable**, if it is in range. -/
theorem isRepresentable_nearestUnits {num den : Nat} (h : nearestUnits num den < unitLimit) :
    IsRepresentable (nearestUnits num den) :=
  ⟨h, shiftLeft_log2_dvd (Nat.le_trans (roundDiv_le _ _) (div_lastPlace_lt num den))⟩

/-- What is one unit at least is never rounded to zero. -/
theorem nearestUnits_pos {num den : Nat} (hd : 0 < den) (h : den ≤ num) :
    0 < nearestUnits num den := by
  unfold nearestUnits
  simp only [Nat.shiftLeft_eq]
  have hquotient : 0 < num / den := Nat.div_pos h hd
  have hplace : 2 ^ lastPlace num den ≤ num / den :=
    Nat.le_trans (Nat.pow_le_pow_right (by decide) (by unfold lastPlace; omega))
      (Nat.log2_self_le (Nat.ne_of_gt hquotient))
  have hpow := Nat.two_pow_pos (lastPlace num den)
  apply Nat.mul_pos _ hpow
  apply Nat.lt_of_lt_of_le _ (div_le_roundDiv _ _)
  rw [← Nat.div_div_eq_div_mul]
  exact Nat.div_pos hplace hpow

/-- The double nearest to `num / den` units, a tie to the even
significand, and an infinity from half a unit of the last place beyond
the greatest double. -/
def ofUnits (negative : Bool) (num den : Nat) : Binary64 :=
  if h : nearestUnits num den < unitLimit then
    .finite negative (nearestUnits num den) (isRepresentable_nearestUnits h)
  else
    .infinite negative

/-- The double nearest to `±num / den`. -/
def ofRatio (negative : Bool) (num den : Nat) : Binary64 :=
  ofUnits negative (num * unitsPerOne) den

/-- The double nearest to an integer, if there is a finite one. -/
def ofInt? (n : Int) : Option Binary64 :=
  match ofRatio (decide (n < 0)) n.natAbs 1 with
  | .infinite _ => none
  | x => some x

/-- Zero with a sign. -/
def signedZero (negative : Bool) : Binary64 :=
  .finite negative 0 (by decide +kernel)

def zero : Binary64 := signedZero false

def one : Binary64 := ofRatio false 1 1

instance : Inhabited Binary64 := ⟨zero⟩

/-! ## Arithmetic -/

/-- A sign and a magnitude as one integer. -/
def signed (negative : Bool) (units : Nat) : Int :=
  if negative then -(units : Int) else units

def neg : Binary64 → Binary64
  | .nan => .nan
  | .infinite s => .infinite (!s)
  | .finite s u h => .finite (!s) u h

/-- The exact sum, rounded. A sum of zero is negative only if both terms
are. -/
def add : Binary64 → Binary64 → Binary64
  | .nan, _ => .nan
  | _, .nan => .nan
  | .infinite s, .infinite t => if s = t then .infinite s else .nan
  | .infinite s, .finite _ _ _ => .infinite s
  | .finite _ _ _, .infinite t => .infinite t
  | .finite s u _, .finite t v _ =>
    let sum := signed s u + signed t v
    if sum = 0 then signedZero (s && t) else ofUnits (decide (sum < 0)) sum.natAbs 1

def sub (x y : Binary64) : Binary64 := x.add y.neg

/-- The exact product, rounded. -/
def mul : Binary64 → Binary64 → Binary64
  | .nan, _ => .nan
  | _, .nan => .nan
  | .infinite s, .infinite t => .infinite (s != t)
  -- an infinity has no product with zero
  | .infinite s, .finite t v _ => if v = 0 then .nan else .infinite (s != t)
  | .finite s u _, .infinite t => if u = 0 then .nan else .infinite (s != t)
  | .finite s u _, .finite t v _ => ofUnits (s != t) (u * v) unitsPerOne

instance : Neg Binary64 := ⟨neg⟩
instance : Add Binary64 := ⟨add⟩
instance : Sub Binary64 := ⟨sub⟩
instance : Mul Binary64 := ⟨mul⟩

/-! ## Comparison -/

/-- A double's place among the others, in units; what is not a number
has none. Both zeros have the same place. -/
def key : Binary64 → Option Int
  | .nan => none
  | .infinite s => some (signed s unitLimit)
  | .finite s u _ => some (signed s u)

/-- Whether two places are there and stand in a relation. -/
def compareKeys (rel : Int → Int → Bool) (x y : Binary64) : Bool :=
  match x.key, y.key with
  | some a, some b => rel a b
  | _, _ => false

def blt (x y : Binary64) : Bool := compareKeys (fun a b => decide (a < b)) x y

def ble (x y : Binary64) : Bool := compareKeys (fun a b => decide (a ≤ b)) x y

/-- Numeric equality: both zeros are equal, and what is not a number
equals nothing. -/
def numEq (x y : Binary64) : Bool := compareKeys (fun a b => decide (a = b)) x y

instance : LT Binary64 := ⟨fun x y => x.blt y = true⟩
instance : LE Binary64 := ⟨fun x y => x.ble y = true⟩
instance (x y : Binary64) : Decidable (x < y) := inferInstanceAs (Decidable (x.blt y = true))
instance (x y : Binary64) : Decidable (x ≤ y) := inferInstanceAs (Decidable (x.ble y = true))

theorem lt_iff {x y : Binary64} :
    x < y ↔ ∃ a b, x.key = some a ∧ y.key = some b ∧ a < b := by
  show compareKeys _ x y = true ↔ _
  unfold compareKeys
  cases x.key <;> cases y.key <;> simp

theorem le_iff {x y : Binary64} :
    x ≤ y ↔ ∃ a b, x.key = some a ∧ y.key = some b ∧ a ≤ b := by
  show compareKeys _ x y = true ↔ _
  unfold compareKeys
  cases x.key <;> cases y.key <;> simp

/-- A positive integer has a positive double. -/
theorem zero_lt_ofRatio {n : Nat} (h : 0 < n) : zero < ofRatio false n 1 := by
  have hnear : 0 < nearestUnits (n * unitsPerOne) 1 :=
    nearestUnits_pos (by decide) (Nat.mul_pos h unitsPerOne_pos)
  rw [lt_iff]
  unfold ofRatio ofUnits
  split
  · exact ⟨0, nearestUnits (n * unitsPerOne) 1, rfl, rfl, by omega⟩
  · exact ⟨0, unitLimit, rfl, rfl, Int.natCast_pos.2 unitLimit_pos⟩

/-- What is not less than a positive double, and less than another
double, is positive and at most that other. -/
theorem between_of_not_lt {x least most : Binary64} (pos : zero < least) (h : ¬ x < least)
    (below : x < most) : zero < x ∧ x ≤ most := by
  obtain ⟨z, l, hz, hl, hzl⟩ := lt_iff.1 pos
  obtain ⟨a, m, ha, hm, ham⟩ := lt_iff.1 below
  have hla : l ≤ a := Int.not_lt.1 fun hal => h (lt_iff.2 ⟨a, l, ha, hl, hal⟩)
  exact ⟨lt_iff.2 ⟨z, a, hz, ha, by omega⟩, le_iff.2 ⟨a, m, ha, hm, by omega⟩⟩

/-- The greater of two doubles, the first if they do not compare. -/
def maximum (x y : Binary64) : Binary64 := if x < y then y else x

/-- The lesser of two doubles, the first if they do not compare. -/
def minimum (x y : Binary64) : Binary64 := if y < x then y else x

/-! ## Whole numbers -/

/-- Numeric equality with an integer, exactly. -/
def eqInt (x : Binary64) (n : Int) : Bool :=
  match x with
  | .finite s u _ => signed s u = n * unitsPerOne
  | _ => false

/-- The integer a double equals, if it equals one. -/
def toInt? : Binary64 → Option Int
  | .finite s u _ => if u % unitsPerOne = 0 then some (signed s (u / unitsPerOne)) else none
  | _ => none

/-- The nearest integer, a half to the even one. -/
def round? : Binary64 → Option Int
  | .finite s u _ => some (signed s (roundDiv u unitsPerOne))
  | _ => none

/-- The greatest integer that is not above a double. -/
def floor? : Binary64 → Option Int
  | .finite s u _ =>
    some (if s then -((u + unitsPerOne - 1) / unitsPerOne : Nat) else (u / unitsPerOne : Nat))
  | _ => none

/-- The least integer that is not below a double. -/
def ceiling? (x : Binary64) : Option Int := x.neg.floor?.map fun n => -n

/-- The nearest natural number, a half to the greater one; of negative
doubles zero. -/
def roundUp? : Binary64 → Option Nat
  | .finite s u _ => some (if s then 0 else (2 * u + unitsPerOne) / (2 * unitsPerOne))
  | _ => none

def isFinite : Binary64 → Bool
  | .finite _ _ _ => true
  | _ => false

end Binary64

end KnowledgeGraph
