import KnowledgeGraph.Input.Property
/-!
# Plans

A plan is a list of steps with what they are estimated to cost and to
leave. The selectivity of a whole plan is a share: more than nothing,
and at most all.
-/

namespace KnowledgeGraph

/-- One step of a plan. What a step works on depends on its operation. -/
structure PlanStep where
  operation : String
  entityType : Option String
  filters : Option Fields
  limit : Option Int
  offset : Option Int
  cost : Binary64
  selectivity : Binary64
deriving DecidableEq

structure Plan where
  steps : List PlanStep
  cost : Binary64
  selectivity : Binary64
  /-- how many entities the plan is estimated to leave -/
  cardinality : Int
  /-- the keys worth an index -/
  indexes : List String
  scansIndex : Bool
  /-- what was done to make it cheaper, in words -/
  optimizations : List String
  selectivity_pos : Binary64.zero < selectivity
  selectivity_le_one : selectivity ≤ Binary64.one
deriving DecidableEq

/-- A share of a whole. -/
abbrev Share := { x : Binary64 // Binary64.zero < x ∧ x ≤ Binary64.one }

namespace Share

def whole : Share := ⟨.one, by decide +kernel⟩

/-- A share as input. What is not a number exceeds the whole. -/
def read : Reader Share := fun raw =>
  (Reader.number raw).andThen fun x =>
    if le_one : x ≤ Binary64.one then
      if pos : Binary64.zero < x then .accept ⟨x, pos, le_one⟩ else .defect (.notAbove 0)
    else .defect (.above 1)

end Share

namespace PlanStep

/-- Keeps the entities of a type. -/
def scan (type : String) (cost selectivity : Binary64) : PlanStep :=
  ⟨"ScanByEntityType", some type, none, none, none, cost, selectivity⟩

/-- Keeps the entities that meet one filter. -/
def filter (key : String) (value : Value) (cost selectivity : Binary64) : PlanStep :=
  ⟨"FilterByProperty", none, some [(key, value)], none, none, cost, selectivity⟩

/-- Keeps some entities after skipping others. -/
def page (limit offset : Nat) (cost : Binary64) : PlanStep :=
  ⟨"Limit", none, none, some limit, some offset, cost, .one⟩

/-- A step read from a record. -/
def ofRecord (r : Record) : Checked PlanStep :=
  PlanStep.mk
    <$> r.required "operation" Reader.text
    <*> r.withDefault "entity_type" none (Reader.orNull Reader.text)
    <*> r.withDefault "property_filters" none (Reader.orNull Reader.properties)
    <*> r.withDefault "limit" none (Reader.orNull Reader.integer)
    <*> r.withDefault "offset" none (Reader.orNull Reader.integer)
    <*> r.withDefault "cost" .zero Reader.number
    <*> r.withDefault "selectivity" .one Reader.number

end PlanStep

/-- A plan read from a record. -/
def Plan.ofRecord (r : Record) : Checked Plan :=
  (fun steps cost selectivity cardinality indexes scansIndex optimizations =>
      ⟨steps, cost, selectivity.1, cardinality, indexes, scansIndex, optimizations,
        selectivity.2.1, selectivity.2.2⟩)
    <$> r.withDefault "steps" [] (Reader.list (Reader.record .planStep PlanStep.ofRecord))
    <*> r.withDefault "estimated_cost" .zero Reader.number
    <*> r.withDefault "estimated_selectivity" Share.whole Share.read
    <*> r.withDefault "estimated_cardinality" 0 Reader.integer
    <*> r.withDefault "recommended_indexes" [] (Reader.list Reader.text)
    <*> r.withDefault "index_scan_recommended" false Reader.truth
    <*> r.withDefault "optimizations_applied" [] (Reader.list Reader.text)

end KnowledgeGraph
