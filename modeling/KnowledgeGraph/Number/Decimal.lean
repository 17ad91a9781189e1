import KnowledgeGraph.Number.Binary64
/-!
# Decimal numbers and their reading as doubles

A `Decimal` is a coefficient and a power of ten. It names exactly one
double, the nearest (`Decimal.toBinary64`), and `Binary64.read?` reads
decimal text through it: an optional sign, digits with at most one
point among them, an optional power of ten; or the words for the
infinities and for what is not a number.
-/

namespace KnowledgeGraph

/-- The number `coefficient · 10 ^ exponent`. -/
structure Decimal where
  coefficient : Nat
  exponent : Int
deriving DecidableEq

/-- The decimal digits of a natural number, most significant first. -/
def digitsOf (n : Nat) : List Char := Nat.toDigits 10 n

/-- The number that a run of decimal digits names. -/
def ofDigits (digits : List Char) : Nat :=
  digits.foldl (fun n c => 10 * n + (c.toNat - '0'.toNat)) 0

namespace Decimal

/-- Where the point stands, counted from the first digit: a positive
decimal is at least `10 ^ (point - 1)` and below `10 ^ point`. -/
def point (d : Decimal) : Int := (digitsOf d.coefficient).length + d.exponent

/-- The nearest double. Below `10 ^ -330` that is zero and from
`10 ^ 310` on infinite, whatever the digits are, so no great power of
ten is ever computed. -/
def toBinary64 (negative : Bool) (d : Decimal) : Binary64 :=
  if d.coefficient = 0 ∨ d.point < -330 then .signedZero negative
  else if 310 < d.point then .infinite negative
  else if 0 ≤ d.exponent then .ofRatio negative (d.coefficient * Nat.pow 10 d.exponent.toNat) 1
  else .ofRatio negative d.coefficient (Nat.pow 10 (-d.exponent).toNat)

/-- A run of digits and nothing else. -/
def readNat? (text : List Char) : Option Nat :=
  if text.isEmpty || !text.all Char.isDigit then none else some (ofDigits text)

/-- A sign, or none, and what follows it. -/
def readSign : List Char → Bool × List Char
  | '-' :: rest => (true, rest)
  | '+' :: rest => (false, rest)
  | rest => (false, rest)

/-- The power of ten at the end of a decimal: nothing, or a letter `e`
and a signed run of digits. -/
def readPower? : List Char → Option Int
  | [] => some 0
  | e :: rest =>
    if e = 'e' || e = 'E' then
      let (negative, digits) := readSign rest
      (readNat? digits).map (Binary64.signed negative)
    else none

/-- Digits with at most one point among them, and a power of ten. There
is at least one digit. -/
def read? (text : List Char) : Option Decimal :=
  let (whole, rest) := text.span Char.isDigit
  let (fraction, rest) :=
    match rest with
    | '.' :: rest => rest.span Char.isDigit
    | _ => ([], rest)
  if whole.isEmpty && fraction.isEmpty then none
  else (readPower? rest).map fun power =>
    ⟨ofDigits (whole ++ fraction), power - fraction.length⟩

end Decimal

/-- The double that a text names. Letters may have either case. -/
def Binary64.read? (text : List Char) : Option Binary64 :=
  let (negative, magnitude) := Decimal.readSign text
  let word := magnitude.map Char.toLower
  if word = "inf".toList ∨ word = "infinity".toList then some (.infinite negative)
  else if word = "nan".toList then some .nan
  else (Decimal.read? magnitude).map (Decimal.toBinary64 negative)

end KnowledgeGraph
