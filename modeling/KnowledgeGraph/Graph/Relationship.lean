import KnowledgeGraph.Graph.Entity
import KnowledgeGraph.Number.Format
/-!
# Relationships

The edges of a graph: from a source to a target, with a weight that is
never negative. A relationship without direction is followed either way.
-/

namespace KnowledgeGraph

structure Relationship where
  id : String
  type : TypeLabel
  sourceId : String
  targetId : String
  properties : Fields
  weight : Binary64
  directed : Bool
  /-- when it came to be, if known -/
  createdAt : Option Timestamp
  weight_nonneg : Binary64.zero ≤ weight
deriving DecidableEq

namespace Relationship

/-- Whether two relationships are the same edge. -/
def sameEdge (r s : Relationship) : Bool := r.id == s.id

/-- Whether two relationships lie between the same ends under one id. -/
def sameLink (r s : Relationship) : Bool :=
  r.sourceId == s.sourceId && r.targetId == s.targetId && r.id == s.id

/-- Where one arrives by following the relationship away from an id. -/
def neighborOf (r : Relationship) (id : String) : Option String :=
  if r.sourceId = id then some r.targetId
  else if !r.directed && r.targetId = id then some r.sourceId
  else none

/-- A relationship in one line: its ends, its type and its weight. -/
def text (r : Relationship) : String :=
  let arrow := if r.directed then "->" else "<->"
  let weight := String.ofList r.weight.text
  s!"{r.sourceId} -[{r.type.text}]{arrow} {r.targetId} (weight={weight})"

/-- The weight of a relationship that says none. -/
def defaultWeight : { x : Binary64 // Binary64.zero ≤ x } := ⟨.one, by decide +kernel⟩

/-- A relationship read from a record. -/
def ofRecord (r : Record) : Checked Relationship :=
  (fun id type sourceId targetId properties weight directed createdAt =>
      ⟨id, type, sourceId, targetId, properties, weight.1, directed, createdAt, weight.2⟩)
    <$> r.required "id" Reader.text
    <*> r.required "type" (fun raw => (Reader.text raw).andThen (TypeLabel.check .relationship))
    <*> r.required "source_id" Reader.text
    <*> r.required "target_id" Reader.text
    <*> r.withDefault "properties" [] Reader.properties
    <*> r.withDefault "weight" defaultWeight Reader.nonNegative
    <*> r.withDefault "directed" true Reader.truth
    <*> r.withDefault "created_at" none (fun raw => (Reader.timestamp raw).map some)

end Relationship

end KnowledgeGraph
