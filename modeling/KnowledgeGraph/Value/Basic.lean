import KnowledgeGraph.Number.Binary64
/-!
# Property values

The open values that entities, relationships and query filters carry.
The kinds stay apart: the integer 1, the double 1.0, the text "1" and
true are four values. Equality in this sense is decidable; the looser
equality that queries use is in `Value.Matching`.

A text, here and in all modules, is a sequence of Unicode scalar values.
Surrogates, alone or in pairs, are in none.
-/

namespace KnowledgeGraph

/-- A property value. Its texts and keys are sequences of Unicode scalar
values. The fields of a map have distinct keys; their order carries no
meaning. -/
inductive Value where
  | null
  | bool (b : Bool)
  | int (n : Int)
  | num (x : Binary64)
  | text (s : String)
  | list (items : List Value)
  | map (fields : List (String × Value))

/-- A bag of properties. -/
abbrev Fields := List (String × Value)

namespace Value

instance : Inhabited Value := ⟨null⟩

/-- The text that a value is. -/
def text? : Value → Option String
  | text s => some s
  | _ => none

/-- Whether things can be kept under a value and looked up by it: not if
it holds others. -/
def isKey : Value → Bool
  | list _ | map _ => false
  | _ => true

mutual

/-- Whether two values are the same, field order included. -/
def same : Value → Value → Bool
  | null, null => true
  | bool a, bool b => a == b
  | int a, int b => a == b
  | num a, num b => decide (a = b)
  | text a, text b => a == b
  | list a, list b => sameItems a b
  | map a, map b => sameFields a b
  | _, _ => false

def sameItems : List Value → List Value → Bool
  | [], [] => true
  | a :: as, b :: bs => same a b && sameItems as bs
  | _, _ => false

def sameFields : Fields → Fields → Bool
  | [], [] => true
  | (k, a) :: as, (l, b) :: bs => k == l && same a b && sameFields as bs
  | _, _ => false

end

mutual

theorem eq_of_same : ∀ {a b : Value}, same a b = true → a = b
  | null, b, h => by cases b <;> simp_all [same]
  | bool _, b, h => by cases b <;> simp_all [same]
  | int _, b, h => by cases b <;> simp_all [same]
  | num _, b, h => by cases b <;> simp_all [same]
  | text _, b, h => by cases b <;> simp_all [same]
  | list a, b, h => by
    cases b <;> simp only [same, Bool.false_eq_true] at h
    rw [eq_of_sameItems h]
  | map a, b, h => by
    cases b <;> simp only [same, Bool.false_eq_true] at h
    rw [eq_of_sameFields h]

theorem eq_of_sameItems : ∀ {a b : List Value}, sameItems a b = true → a = b
  | [], b, h => by cases b <;> simp_all [sameItems]
  | a :: as, b, h => by
    cases b with
    | nil => simp [sameItems] at h
    | cons b bs =>
      simp only [sameItems, Bool.and_eq_true] at h
      rw [eq_of_same h.1, eq_of_sameItems h.2]

theorem eq_of_sameFields : ∀ {a b : Fields}, sameFields a b = true → a = b
  | [], b, h => by cases b <;> simp_all [sameFields]
  | (k, a) :: as, b, h => by
    cases b with
    | nil => simp [sameFields] at h
    | cons b bs =>
      obtain ⟨l, b⟩ := b
      simp only [sameFields, Bool.and_eq_true, beq_iff_eq] at h
      rw [h.1.1, eq_of_same h.1.2, eq_of_sameFields h.2]

end

mutual

theorem same_self : ∀ a : Value, same a a = true
  | null => rfl
  | bool _ => by simp [same]
  | int _ => by simp [same]
  | num _ => by simp [same]
  | text _ => by simp [same]
  | list a => by simp only [same]; exact sameItems_self a
  | map a => by simp only [same]; exact sameFields_self a

theorem sameItems_self : ∀ a : List Value, sameItems a a = true
  | [] => rfl
  | a :: as => by simp [sameItems, same_self a, sameItems_self as]

theorem sameFields_self : ∀ a : Fields, sameFields a a = true
  | [] => rfl
  | (_, a) :: as => by simp [sameFields, same_self a, sameFields_self as]

end

instance : DecidableEq Value := fun a b =>
  if h : same a b = true then .isTrue (eq_of_same h)
  else .isFalse fun e => h (e ▸ same_self a)

end Value

end KnowledgeGraph
