import KnowledgeGraph.Number.Shortest
/-!
# Doubles as text

Two formats. `Binary64.text` writes the shortest digits that read back,
positionally from `10^-4` up to `10^16` and with a power of ten outside;
a whole number keeps `.0`, so no double is written like an integer.
`Binary64.fixed` writes a set number of places, rounding the exact value
and not its shortest digits, and `Binary64.percent` a hundred times the
double the same way.
-/

namespace KnowledgeGraph

/-- The digits of a coefficient without the zeros at its end. -/
def significantDigits (coefficient : Nat) : List Char :=
  ((digitsOf coefficient).reverse.dropWhile (· = '0')).reverse

/-- At least `width` characters, with zeros in front. -/
def padZeros (width : Nat) (digits : List Char) : List Char :=
  List.replicate (width - digits.length) '0' ++ digits

/-- A minus sign for what is negative. -/
def signText (negative : Bool) : List Char := if negative then ['-'] else []

namespace Decimal

/-- Digits with a point after the first `point` of them, zeros filling
up on either side. -/
def positional (digits : List Char) (point : Int) : List Char :=
  if point ≤ 0 then "0.".toList ++ List.replicate (-point).toNat '0' ++ digits
  else if digits.length ≤ point then
    digits ++ List.replicate (point.toNat - digits.length) '0' ++ ".0".toList
  else digits.take point.toNat ++ '.' :: digits.drop point.toNat

/-- One digit, a point if others follow, and the power of ten with its
sign and at least two digits. -/
def scientific (digits : List Char) (power : Int) : List Char :=
  let mantissa :=
    match digits with
    | first :: second :: rest => first :: '.' :: second :: rest
    | _ => digits
  mantissa ++ 'e' :: (if power < 0 then '-' else '+') :: padZeros 2 (digitsOf power.natAbs)

/-- A positive decimal as text: positional while its first digit stands
from four places after the point to sixteen before it. -/
def text (d : Decimal) : List Char :=
  let digits := significantDigits d.coefficient
  if -4 < d.point ∧ d.point ≤ 16 then positional digits d.point
  else scientific digits (d.point - 1)

end Decimal

namespace Binary64

/-- The shortest text that reads back. -/
def text : Binary64 → List Char
  | .nan => "nan".toList
  | .infinite s => signText s ++ "inf".toList
  | .finite s u _ =>
    signText s ++ if u = 0 then "0.0".toList else (Decimal.shortest u).text

/-- The exact value rounded to a number of places, a half to the even
digit. The sign stays, also in front of zero. -/
def fixed (places : Nat) : Binary64 → List Char
  | .nan => "nan".toList
  | .infinite s => signText s ++ "inf".toList
  | .finite s u _ =>
    let digits := padZeros (places + 1) (digitsOf (roundDiv (u * Nat.pow 10 places) unitsPerOne))
    let whole := digits.length - places
    signText s ++ digits.take whole ++ '.' :: digits.drop whole

/-- A fraction in percent, with a number of places. -/
def percent (places : Nat) (x : Binary64) : List Char :=
  (x * ofRatio false 100 1).fixed places ++ ['%']

end Binary64

end KnowledgeGraph
