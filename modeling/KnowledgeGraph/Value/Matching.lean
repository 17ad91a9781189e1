import KnowledgeGraph.Value.Basic
import KnowledgeGraph.Text.Wildcard
/-!
# When a stored value meets a filter

`Value.numericEq` compares numbers by what they are worth: 1, 1.0 and
true are equal, at every depth, and nothing equals what is not a number.
`Value.meets` is the rule of filters: a text with a star is a wildcard
pattern, a truth value meets only itself, and everything else is
compared by `numericEq`.
-/

namespace KnowledgeGraph

namespace Value

/-- A number of either kind. -/
inductive Number where
  | int (n : Int)
  | num (x : Binary64)

/-- Exact numeric equality. -/
def Number.eq : Number → Number → Bool
  | .int a, .int b => a == b
  | .int a, .num y => y.eqInt a
  | .num x, .int b => x.eqInt b
  | .num x, .num y => x.numEq y

/-- Whether a number is below zero. -/
def Number.isNegative : Number → Bool
  | .int n => n < 0
  | .num x => decide (x < Binary64.zero)

/-- Whether a number is zero or below it. -/
def Number.isNonPositive : Number → Bool
  | .int n => n ≤ 0
  | .num x => decide (x ≤ Binary64.zero)

/-- What a value is worth as a number; a truth value counts one or
zero. -/
def number? : Value → Option Number
  | bool b => some (.int (if b then 1 else 0))
  | int n => some (.int n)
  | num x => some (.num x)
  | _ => none

/-- Whether two values are worth the same number. -/
def sameNumber (a b : Value) : Bool :=
  match a.number?, b.number? with
  | some m, some n => m.eq n
  | _, _ => false

mutual

/-- Equality of values with numbers compared by worth: lists item by
item, maps key by key. -/
def numericEq : Value → Value → Bool
  | null, null => true
  | text a, text b => a == b
  | list a, list b => numericEqItems a b
  | map a, map b => a.length == b.length && numericEqFields a b
  | a, b => sameNumber a b

def numericEqItems : List Value → List Value → Bool
  | [], [] => true
  | a :: as, b :: bs => numericEq a b && numericEqItems as bs
  | _, _ => false

/-- Whether every field is, up to `numericEq`, among others. -/
def numericEqFields : Fields → Fields → Bool
  | [], _ => true
  | (k, a) :: as, b =>
    (match b.lookup k with
      | some v => numericEq a v
      | none => false) && numericEqFields as b

end

/-- The text of a value that is a wildcard pattern: one with a star. -/
def pattern? : Value → Option (List Char)
  | text s => if s.toList.contains '*' then some s.toList else none
  | _ => none

/-- Whether a stored value meets a filter's. -/
def meets (stored expected : Value) : Bool :=
  match expected.pattern?, stored with
  | some pattern, text s => Text.matchesPattern pattern s.toList
  | _, _ =>
    match stored, expected with
    | bool a, bool b => a == b
    | bool _, _ => false
    | _, bool _ => false
    | a, b => numericEq a b

end Value

/-- Whether a bag of properties meets a filter: it has the key, with a
value that meets the filter's. -/
def Fields.meet (properties : Fields) (filter : String × Value) : Bool :=
  match properties.lookup filter.1 with
  | some stored => stored.meets filter.2
  | none => false

end KnowledgeGraph
