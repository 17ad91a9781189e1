import KnowledgeGraph.Input.Argument
import KnowledgeGraph.Plan.Basic
import KnowledgeGraph.Plan.Selectivity
import KnowledgeGraph.Query.Basic
/-!
# The planner

A plan takes the entities of the type first, then filters, the most
selective first, then cuts out the page. Every step before the page is
charged for all entities that are assumed to be stored, the baseline, so
a further constraint never makes a query cheaper.
-/

namespace KnowledgeGraph

/-- A planner is known by the number of entities it assumes. -/
structure Planner where
  baseline : Value.Number
  baseline_pos : baseline.isNonPositive = false

namespace Planner

/-- The fault of a baseline that is zero or below it. -/
def baselineFault (baseline : Value) : Fault :=
  .argument "baseline_cardinality"
    (some s!"baseline_cardinality must be positive, got {baseline.display}")

/-- A planner for a positive baseline. -/
def open? (baseline : Value) : Except Fault Planner :=
  (Argument.number baseline).bind fun n =>
    if h : n.isNonPositive = true then .error (baselineFault baseline)
    else .ok ⟨n, Bool.eq_false_iff.2 h⟩

/-- A planner that assumes a thousand entities. -/
def default : Planner := ⟨.int 1000, rfl⟩

/-- The baseline as a double. What comes of it has to be a number of
entities, so it has to be finite. -/
def rows (p : Planner) : Except Fault Binary64 :=
  match p.baseline with
  | .num .nan => .error .notANumber
  | .num (.infinite _) => .error .infinite
  | n => Argument.toDouble n

/-! ## Costs -/

/-- The cost of looking at one entity's type. -/
def scanCost : Binary64 := .ofRatio false 1 10

/-- The cost of holding one entity against a filter. -/
def filterCost : Binary64 := .ofRatio false 5 100

/-- The cost of cutting out a page. -/
def pageCost : Binary64 := .one

/-! ## Steps -/

/-- Whether a filter goes before another: it is more selective, or just
as selective and its key is first. -/
def goesBefore (a b : String × Value) : Bool :=
  let first := selectivity a.1 a.2
  let second := selectivity b.1 b.2
  decide (first < second) || (!decide (second < first) && decide (a.1 ≤ b.1))

/-- Filters, the most selective first. -/
def ordered (filters : Fields) : Fields := filters.mergeSort goesBefore

/-- The scan that a type asks for. -/
def scanSteps (rows : Binary64) (q : Query) : List PlanStep :=
  q.scannedType?.toList.map fun type => .scan type (scanCost * rows) typeSelectivity

def filterStep (rows : Binary64) (filter : String × Value) : PlanStep :=
  .filter filter.1 filter.2 (filterCost * rows) (selectivity filter.1 filter.2)

def filterSteps (rows : Binary64) (q : Query) : List PlanStep :=
  (ordered q.filters).map (filterStep rows)

/-- The page, unless all entities are asked for. -/
def pageSteps (q : Query) : List PlanStep :=
  if 0 < q.pageSize then [.page q.pageSize q.skip pageCost] else []

def steps (rows : Binary64) (q : Query) : List PlanStep :=
  scanSteps rows q ++ filterSteps rows q ++ pageSteps q

/-! ## Estimates -/

/-- Costs add up in the order of the steps. -/
def totalCost (steps : List PlanStep) : Binary64 :=
  (steps.map PlanStep.cost).foldl (· + ·) .zero

/-- Selectivities multiply in the order of the steps. -/
def product (steps : List PlanStep) : Binary64 :=
  (steps.map PlanStep.selectivity).foldl (· * ·) .one

/-- The least selectivity that is estimated. -/
def leastSelectivity : Binary64 := .ofRatio false 1 1000000000000

/-- A selectivity held between the least one and the whole. -/
def clamp (x : Binary64) : Binary64 := Binary64.minimum .one (Binary64.maximum x leastSelectivity)

theorem clamp_bounds (x : Binary64) : Binary64.zero < clamp x ∧ clamp x ≤ Binary64.one := by
  have least : Binary64.zero < leastSelectivity ∧ leastSelectivity ≤ Binary64.one := by
    decide +kernel
  have whole : Binary64.zero < Binary64.one ∧ Binary64.one ≤ Binary64.one := by decide +kernel
  unfold clamp Binary64.minimum
  by_cases below : Binary64.maximum x leastSelectivity < Binary64.one
  · rw [if_pos below]
    unfold Binary64.maximum at *
    by_cases above : x < leastSelectivity
    · rw [if_pos above]
      exact least
    · rw [if_neg above] at below ⊢
      exact Binary64.between_of_not_lt least.1 above below
  · rw [if_neg below]
    exact whole

/-- How many of the baseline's entities are left, and never none. -/
def cardinality (rows selectivity : Binary64) : Int :=
  match (rows * selectivity).round? with
  | some n => max 1 n
  | none => 1

/-- The keys worth an index, in the order of the steps. -/
def indexes (q : Query) : List String :=
  ((ordered q.filters).filter fun f => decide (selectivity f.1 f.2 < indexThreshold)).map (·.1)

/-- What ordering the filters and finding indexes amounted to. -/
def optimizations (q : Query) : List String :=
  (if q.filters.isEmpty then [] else [s!"Ordered {q.filters.length} filters by selectivity"]) ++
    (if (indexes q).isEmpty then []
      else ["Index scan recommended on: " ++ ", ".intercalate (indexes q)])

/-- The plan of a query over a number of entities. -/
def planFor (rows : Binary64) (q : Query) : Plan where
  steps := steps rows q
  cost := totalCost (steps rows q)
  selectivity := clamp (product (steps rows q))
  cardinality := cardinality rows (clamp (product (steps rows q)))
  indexes := indexes q
  scansIndex := !(indexes q).isEmpty
  optimizations := optimizations q
  selectivity_pos := (clamp_bounds _).1
  selectivity_le_one := (clamp_bounds _).2

/-- The plan of a query. Planning fails only if the baseline is no finite
double. -/
def plan (p : Planner) (q : Query) : Except Fault Plan := p.rows.map fun rows => planFor rows q

theorem plan_of_rows {p : Planner} {rows : Binary64} (h : p.rows = .ok rows) (q : Query) :
    p.plan q = .ok (planFor rows q) := by
  rw [plan, h]
  rfl

/-- A plan that was made is one over the rows of the baseline. -/
theorem exists_rows_of_plan {p : Planner} {q : Query} {made : Plan} (h : p.plan q = .ok made) :
    ∃ rows, p.rows = .ok rows ∧ planFor rows q = made := by
  rw [plan] at h
  cases hrows : p.rows with
  | error f =>
    rw [hrows] at h
    cases h
  | ok rows =>
    rw [hrows] at h
    exact ⟨rows, rfl, Except.ok.inj h⟩

theorem plan_of_rows_eq_error {p : Planner} {f : Fault} (h : p.rows = .error f) (q : Query) :
    p.plan q = .error f := by
  rw [plan, h]
  rfl

/-- The plan of a query that a caller may have left out. -/
def planGiven (p : Planner) (q : Option Query) : Except Fault Plan :=
  (Fault.require "query" q).bind p.plan

end Planner

end KnowledgeGraph
