import KnowledgeGraph.Fault.Basic
import KnowledgeGraph.Value.Matching
/-!
# Numbers as arguments of calls

An argument is not read like a field of a record: it has to be a number
as it is, and what is no number is a wrong argument. Where a double is
needed an integer beyond their range overflows.
-/

namespace KnowledgeGraph

namespace Argument

/-- A number. -/
def number (v : Value) : Except Fault Value.Number :=
  v.number?.elim (.error .wrongArguments) .ok

/-- A number as a double. -/
def toDouble : Value.Number → Except Fault Binary64
  | .num x => .ok x
  | .int n => (Binary64.ofInt? n).elim (.error .overflow) .ok

/-- A number of seconds. -/
def seconds (v : Value) : Except Fault Binary64 := (number v).bind toDouble

end Argument

end KnowledgeGraph
