import KnowledgeGraph.Input.Bag
import KnowledgeGraph.Graph.Relationship
/-!
# Rows

What a statement is answered with. A row holds values by the names of its
columns; the properties of a node or an edge are one column, a bag.
`Row.entity` and `Row.relationship` read what the statements of
`Database.Statement` return. The first column that is missing is the one
reported. Where something else stands for a row, or for the rows, it is
refused only as far as it is looked into.
-/

namespace KnowledgeGraph

/-- Columns by name, or whatever else stands in their place. -/
abbrev Row := Raw

/-- A list of rows, or whatever else stands in its place. -/
abbrev Rows := Raw

/-! ## Rows one by one -/

namespace Rows

/-- The first row, unless the answer says nothing. -/
def first? (rows : Rows) : Except Fault (Option Row) :=
  if rows.isVoid then .ok none
  else
    match rows.entries?, rows.parts? with
    | some _, _ => .error (.missingKey (.int 0))
    | none, some parts => .ok parts.head?
    | none, none => .error .wrongArguments

/-- All rows in order. -/
def all (rows : Rows) : Except Fault (List Row) := rows.parts?.elim (.error .wrongArguments) .ok

/-- How many rows there are. -/
def count (rows : Rows) : Nat := (rows.parts?.getD []).length

end Rows

/-! ## The columns of a row -/

namespace Row

/-- A column, which has to be there. -/
def column (row : Row) (name : String) : Except Fault Raw :=
  match row.record? with
  | some columns => (columns.lookup name).elim (.error (.missingKey (.text name))) .ok
  | none => .error .wrongArguments

/-- A column that holds properties. -/
def bag (row : Row) (name : String) : Except Fault Bag := (row.column name).bind Bag.ofRaw

/-- A column that holds labels, or something that falls into them. -/
def labels (row : Row) (name : String) : Except Fault (List Raw) :=
  (row.column name).bind fun raw => raw.parts?.elim (.error .wrongArguments) .ok

/-- When something came to be, if its properties say so. Here, and
nowhere else, a timestamp of the database's own is converted. -/
def createdAt (bag : Bag) : Except Fault Record :=
  match bag.find? "created_at" with
  | none | some (.value .null) => .ok []
  | some (.native converted) => converted.map fun t => [("created_at", .timestamp t)]
  | some raw => .ok [("created_at", raw)]

/-! ## Entities -/

/-- The label of every entity's node. -/
def entityLabel : Value := .text "Entity"

/-- Whether a label is the one of all entities. -/
def isEntityLabel : Raw → Bool
  | .value label => label = entityLabel
  | _ => false

/-- The type of an entity by its node's labels: the first that is its
own, and if it has none the label of all. -/
def typeOfLabels (labels : List Raw) : Raw :=
  (labels.find? fun label => !isEntityLabel label).getD (.value entityLabel)

/-- The entity whose node a row returns. -/
def entity (row : Row) : Except Fault Entity := do
  let bag ← row.bag "props"
  let labels ← row.labels "labels"
  let id ← bag.get "id"
  let created ← createdAt bag
  let record : Record :=
    [("id", id), ("type", typeOfLabels labels),
      ("properties", .map (bag.without ["id", "created_at"]))] ++ created
  (Entity.ofRecord record).orFault .entity

/-! ## Relationships -/

/-- A property as a field of the same name, if it is there. -/
def optional (bag : Bag) (name : String) : Record :=
  (bag.find? name).toList.map fun raw => (name, raw)

/-- The relationship whose edge a row returns. -/
def relationship (row : Row) : Except Fault Relationship := do
  let bag ← row.bag "props"
  -- the order here decides which missing column is reported
  let id ← bag.get "id"
  let type ← row.column "type"
  let sourceId ← row.column "source_id"
  let targetId ← row.column "target_id"
  let created ← createdAt bag
  let record : Record :=
    [("id", id), ("type", type), ("source_id", sourceId), ("target_id", targetId),
      ("properties", .map (bag.without ["id", "weight", "directed", "created_at"]))]
      ++ optional bag "weight" ++ optional bag "directed" ++ created
  (Relationship.ofRecord record).orFault .relationship

end Row

end KnowledgeGraph
