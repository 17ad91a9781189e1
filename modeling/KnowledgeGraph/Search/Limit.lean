import KnowledgeGraph.Fault.Basic
import KnowledgeGraph.Value.Matching
/-!
# How long a path may be

A limit on the number of relationships of a path is given as a number. A
path may go on while it has fewer, so between two whole numbers the
greater is the limit. An infinite number limits nothing, and what is not
a number leaves room for no relationship.
-/

namespace KnowledgeGraph

/-- How many relationships a path may have. -/
inductive HopLimit where
  | atMost (hops : Nat)
  | unlimited
deriving DecidableEq

namespace HopLimit

/-- The fault of a limit below zero. -/
def negative (given : Value) : Fault :=
  .argument "max_depth" (some s!"max_depth must be >= 0, got {given.display}")

/-- The limit that a number sets. -/
def ofNumber : Value.Number → HopLimit
  | .int n => atMost n.toNat
  | .num (.infinite _) => unlimited
  | .num x => atMost ((x.ceiling?.getD 0).toNat)

/-- The limit that an argument sets. -/
def ofValue (given : Value) : Except Fault HopLimit :=
  match given.number? with
  | none => .error .wrongArguments
  | some n => if n.isNegative then .error (negative given) else .ok (ofNumber n)

/-- The limit as a number, where every path has fewer relationships than
some number anyway. -/
def within (tooMany : Nat) : HopLimit → Nat
  | atMost hops => hops
  | unlimited => tooMany

/-- A whole number from zero on is the limit that it sets. -/
theorem ofValue_int (n : Nat) : ofValue (.int n) = .ok (atMost n) := by
  have h : ¬ (n : Int) < 0 := by omega
  simp [ofValue, Value.number?, Value.Number.isNegative, ofNumber, h]

end HopLimit

end KnowledgeGraph
