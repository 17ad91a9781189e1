import KnowledgeGraph.Plan.Basic
import KnowledgeGraph.Value.Canonical
/-!
# A plan for people to read

The estimates first, then every step under its number with what it works
on, and last what made the plan cheaper. Parts that a plan does not have
are left out. A plan with an integer that is too long to be written
cannot be read.
-/

namespace KnowledgeGraph

/-- Names with commas between them. -/
def commaList (names : List String) : String := ", ".intercalate names

/-- A line with an integer behind its label. -/
def integerLine (label : String) (n : Int) : Except Fault String :=
  (Canonical.integer n).map fun digits => label ++ String.ofList digits

namespace PlanStep

/-- The type a step scans for, if it has one. -/
def typeLines (s : PlanStep) : List String :=
  (s.entityType.filter (!·.isEmpty)).toList.map fun type => s!"   Entity Type: {type}"

/-- The keys a step filters by, if it has any. -/
def filterLines (s : PlanStep) : List String :=
  (s.filters.filter (!·.isEmpty)).toList.map fun filters =>
    "   Filters: " ++ commaList (filters.map (·.1))

/-- A step under its number. -/
def lines (number : Nat) (s : PlanStep) : Except Fault (List String) := do
  let limit ← s.limit.toList.mapM (integerLine "   Limit: ")
  let offset ← s.offset.toList.mapM (integerLine "   Offset: ")
  return s!"{number}. {s.operation}" :: s.typeLines ++ s.filterLines ++ limit ++ offset
    ++ ["   Cost: " ++ String.ofList (s.cost.fixed 2)]

end PlanStep

namespace Plan

def estimateLines (p : Plan) : Except Fault (List String) := do
  let cardinality ← integerLine "Estimated Cardinality: " p.cardinality
  return ["=== Query Execution Plan ===",
    "Estimated Cost: " ++ String.ofList (p.cost.fixed 2),
    cardinality,
    "Estimated Selectivity: " ++ String.ofList (p.selectivity.percent 2),
    ""]

def indexLines (p : Plan) : List String :=
  if p.indexes.isEmpty then [] else ["Recommended Indexes: " ++ commaList p.indexes, ""]

def stepLines (p : Plan) : Except Fault (List String) := do
  let steps ← (p.steps.zipIdx 1).mapM fun step => step.1.lines step.2
  return "Steps:" :: steps.flatten

def optimizationLines (p : Plan) : List String :=
  if p.optimizations.isEmpty then []
  else "" :: "Optimizations Applied:" :: p.optimizations.map fun words => s!"  - {words}"

/-- A plan as lines of text, each ended by a newline. -/
def readable (p : Plan) : Except Fault String := do
  let estimates ← p.estimateLines
  let steps ← p.stepLines
  let lines := estimates ++ p.indexLines ++ steps ++ p.optimizationLines
  return String.join (lines.map (· ++ "\n"))

end Plan

end KnowledgeGraph
