import KnowledgeGraph.Graph.Relationship
import KnowledgeGraph.Input.Assigned
import KnowledgeGraph.Value.Matching
/-!
# Attributes

Entities and relationships as maps of their attributes. When it came to
be is among them if it was given. `Entity.attributesAfter` is the map
after attributes were set; where all of them were replaced it holds what
they were replaced by, held against no rule.
-/

namespace KnowledgeGraph

/-- When something came to be, if that is known. -/
def createdField (t : Option Timestamp) : Fields :=
  t.toList.map fun t => ("created_at", .text t.text)

/-- An attribute of a record whose attributes were replaced. -/
def replacedAttribute (kind : RecordKind) (fields : Fields) (name : String) : Except Fault Value :=
  (fields.lookup name).elim (.error (.stripped kind name)) .ok

/-- When something came to be, from replaced attributes: no value says
that. -/
def replacedCreation (kind : RecordKind) (fields : Fields) : Except Fault Unit := do
  .error (.lacking (← replacedAttribute kind fields "created_at") "isoformat")

namespace Entity

def attributes (e : Entity) : Fields :=
  [("id", .text e.id), ("type", .text e.type.text), ("properties", .map e.properties),
    ("name", .text e.name)]

def allAttributes (e : Entity) : Fields := e.attributes ++ createdField e.createdAt

/-- The text shown for an entity, from replaced attributes. -/
def replacedName (id : Value) : Value → Except Fault Value
  | .map properties =>
    match properties.lookup "name" with
    | some (.text s) => .ok (.text s)
    | _ => .ok id
  | other => .error (.lacking other "get")

/-- The attributes of an entity after some were set. -/
def attributesAfter (e : Entity) (a : Assigned) : Except Fault Fields := do
  match a.replaced with
  | none =>
    if ← a.holds "created_at" e.createdAt.isSome then return e.allAttributes
    else return e.attributes
  | some fields =>
    let id ← replacedAttribute .entity fields "id"
    let type ← replacedAttribute .entity fields "type"
    let properties ← replacedAttribute .entity fields "properties"
    let name ← replacedName id properties
    if ← a.holds "created_at" e.createdAt.isSome then replacedCreation .entity fields
    return [("id", id), ("type", type), ("properties", properties), ("name", name)]

end Entity

namespace Relationship

def attributes (r : Relationship) : Fields :=
  [("id", .text r.id), ("type", .text r.type.text), ("source_id", .text r.sourceId),
    ("target_id", .text r.targetId), ("properties", .map r.properties), ("weight", .num r.weight),
    ("directed", .bool r.directed), ("str", .text r.text)]

def allAttributes (r : Relationship) : Fields := r.attributes ++ createdField r.createdAt

/-- The names of the fields, in the order in which they are shown. -/
def fieldNames : List String :=
  ["id", "type", "source_id", "target_id", "properties", "weight", "directed"]

/-- A relationship in one line, from replaced attributes. -/
def replacedText (fields : Fields) : String :=
  let words (name : String) : String := ((fields.lookup name).getD .null).words
  let arrow := if (fields.lookup "directed").any (!·.isVoid) then "->" else "<->"
  words "source_id" ++ " -[" ++ words "type" ++ "]" ++ arrow ++ " " ++ words "target_id" ++
    " (weight=" ++ words "weight" ++ ")"

/-- The attributes of a relationship after some were set. -/
def attributesAfter (r : Relationship) (a : Assigned) : Except Fault Fields := do
  match a.replaced with
  | none =>
    if ← a.holds "created_at" r.createdAt.isSome then return r.allAttributes
    else return r.attributes
  | some fields =>
    let shown ← fieldNames.mapM fun name =>
      return (name, ← replacedAttribute .relationship fields name)
    if ← a.holds "created_at" r.createdAt.isSome then replacedCreation .relationship fields
    return shown ++ [("str", .text (replacedText fields))]

/-- Where one arrives by following the relationship away from something,
after attributes were set. -/
def neighborAfter (r : Relationship) (a : Assigned) (id : Value) : Value :=
  match a.replaced with
  | none => ((id.text?.bind r.neighborOf).map Value.text).getD .null
  | some fields =>
    let value (name : String) : Value := (fields.lookup name).getD .null
    if (value "source_id").numericEq id then value "target_id"
    else if (value "directed").isVoid && (value "target_id").numericEq id then value "source_id"
    else .null

end Relationship

end KnowledgeGraph
