import KnowledgeGraph.Number.Decimal
/-!
# The shortest decimal that reads back

A positive finite double is written with the fewest digits that read
back as the same double, at most 17, and of two such decimals with the
nearer. For each number of digits only two decimals can be the answer,
the double's neighbours on that decimal grid, and a neighbour is taken only
if it reads back. Where none did, all the double's digits would be
written, so that the answer reads back in any case.
-/

namespace KnowledgeGraph

/-- Every finite double is `scaled · 10^-1074` for a whole number
`scaled`, since a unit is `5^1074 · 10^-1074`. -/
def scaledByTen (units : Nat) : Nat := units * Nat.pow 5 1074

/-- The whole double, digit for digit. -/
def Decimal.exact (units : Nat) : Decimal := ⟨scaledByTen units, -1074⟩

namespace Shortest

/-- Whether a decimal reads back as the double of so many units. -/
def readsBack (units : Nat) (d : Decimal) : Bool :=
  match d.toBinary64 false with
  | .finite _ u _ => u = units
  | _ => false

/-- The one of two decimals that reads back. Where both do, it is said
which. -/
def eitherBack? (units : Nat) (preferLower : Bool) (lower upper : Decimal) : Option Decimal :=
  match readsBack units lower, readsBack units upper with
  | true, true => some (if preferLower then lower else upper)
  | true, false => some lower
  | false, true => some upper
  | false, false => none

/-- The double's nearest decimal that reads back among its two
neighbours with `count` digits. An exact tie goes to the even digit. -/
def withDigits? (units count : Nat) : Option Decimal :=
  -- the grid of `count` digits around the exact value
  let scaled := scaledByTen units
  let dropped := (digitsOf scaled).length - count
  let grid := Nat.pow 10 dropped
  let below := scaled / grid
  let rest := scaled % grid
  eitherBack? units (2 * rest < grid || (2 * rest = grid && below % 2 = 0))
    ⟨below, dropped - 1074⟩ ⟨below + 1, dropped - 1074⟩

end Shortest

/-- The shortest decimal for a positive number of units. -/
def Decimal.shortest (units : Nat) : Decimal :=
  ((List.range 17).findSome? fun i => Shortest.withDigits? units (i + 1)).getD (.exact units)

end KnowledgeGraph
