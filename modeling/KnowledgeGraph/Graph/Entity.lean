import KnowledgeGraph.Graph.TypeLabel
import KnowledgeGraph.Input.Property
/-!
# Entities

The nodes of a graph. Two entities are the same node exactly if their
ids are equal, whatever else they say of it.
-/

namespace KnowledgeGraph

structure Entity where
  id : String
  type : TypeLabel
  properties : Fields
  /-- when it came to be, if known -/
  createdAt : Option Timestamp
deriving DecidableEq

namespace Entity

/-- The text shown for an entity: its property `name`, if that is a text,
else its id. -/
def name (e : Entity) : String :=
  match e.properties.lookup "name" with
  | some (.text s) => s
  | _ => e.id

/-- Whether two entities are the same node. -/
def sameNode (e f : Entity) : Bool := e.id == f.id

/-- An entity read from a record. -/
def ofRecord (r : Record) : Checked Entity :=
  Entity.mk
    <$> r.required "id" Reader.text
    <*> r.required "type" (fun raw => (Reader.text raw).andThen (TypeLabel.check .entity))
    <*> r.withDefault "properties" [] Reader.properties
    <*> r.withDefault "created_at" none (fun raw => (Reader.timestamp raw).map some)

end Entity

end KnowledgeGraph
