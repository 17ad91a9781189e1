import KnowledgeGraph.Time.Timestamp
import KnowledgeGraph.Token
import KnowledgeGraph.Value.Display
/-!
# Raw input

What comes in before it is held against any rule. Besides plain values
it may hold what only a program can hand over, at any depth: timestamps,
also those that a database has of its own, tokens, and names that are no
texts. Lists
and maps of plain values come in two forms, which the views `items?` and
`entries?` make one.
-/

namespace KnowledgeGraph

/-- What may be given for a value of any kind. -/
inductive Raw where
  | value (v : Value)
  | timestamp (t : Timestamp)
  /-- a timestamp of a database's own, with what converting it comes to -/
  | native (converted : Except Fault Timestamp)
  | token (t : Token)
  | list (items : List Raw)
  /-- what stands under names of any kind -/
  | map (entries : List (Value × Raw))

/-- A record as it comes: fields in any order, by name. -/
abbrev Record := List (String × Raw)

/-- The record that a map of plain values is. -/
def Record.ofFields (fields : Fields) : Record := fields.map fun f => (f.1, .value f.2)

namespace Raw

instance : Inhabited Raw := ⟨value .null⟩

/-- The items of a list. -/
def items? : Raw → Option (List Raw)
  | value (.list items) => some (items.map value)
  | list items => some items
  | _ => none

/-- What stands under the names of a map. -/
def entries? : Raw → Option (List (Value × Raw))
  | value (.map fields) => some (fields.map fun f => (.text f.1, .value f.2))
  | map entries => some entries
  | _ => none

/-- The entries whose names are texts. -/
def named (entries : List (Value × Raw)) : Record :=
  entries.filterMap fun
    | (.text name, raw) => some (name, raw)
    | _ => none

/-- The record that a map is; nothing in a record is found by what is not
a text. -/
def record? (raw : Raw) : Option Record := raw.entries?.map named

/-- What something falls into: a list into its items, a text into its
characters, a map into its names. -/
def parts? : Raw → Option (List Raw)
  | value (.text s) => some (s.toList.map fun c => .value (.text (.singleton c)))
  | raw => raw.items? <|> raw.entries?.map fun entries => entries.map fun entry => .value entry.1

/-- Whether something says nothing. -/
def isVoid : Raw → Bool
  | value v => v.isVoid
  | list items => items.isEmpty
  | map entries => entries.isEmpty
  | timestamp _ | native _ | token _ => false

/-- A map of plain values is the record of its fields. -/
theorem record?_map (fields : Fields) :
    (value (.map fields)).record? = some (.ofFields fields) := by
  simp only [record?, entries?, Option.map_some, named, Record.ofFields, Option.some.injEq]
  induction fields with
  | nil => rfl
  | cons f rest ih => exact congrArg (List.cons (f.1, value f.2)) ih

end Raw

end KnowledgeGraph
