import KnowledgeGraph.Input.Reader
/-!
# Reading properties

A property is null or of one of six kinds, and is kept as it comes. What
is of none of them is held against each kind in turn, and every kind
reports what it lacks; a list and a map report what is wrong inside them.
Properties may hold others, at a limited number of levels.
-/

namespace KnowledgeGraph

/-- What keeps a value from being a property of some kind. -/
def PropertyKind.defect : PropertyKind → Defect
  | truth => .notTruth
  | integer => .notInteger
  | number => .notNumber
  | text => .notText
  | list => .notList
  | map => .notMap

namespace Reader

open Checked

/-- The issues of a value that is a property of no kind. For the kind
that it comes nearest to, if there is one, its own issues stand. -/
def issuesByKind (nearest : Option PropertyKind) (issues : List Issue) : List Issue :=
  PropertyKind.all.flatMap fun kind =>
    (if nearest = some kind then issues else [⟨[], kind.defect⟩]).map (.inside (.reading kind))

/-- What was read as the kind it comes nearest to. -/
def ofNearest {α : Type} (kind : PropertyKind) (x : Checked α) : Checked α :=
  match x.outcome with
  | .ok a => accept a
  | .error issues => refuse (issuesByKind (some kind) issues)

/-- The text that something stands under. -/
def propertyName : Value → Checked String
  | .text s => accept s
  | name => refuse [⟨[.under name, .name], .notText⟩]

/-- What stands under names, read one by one. -/
def bag (property : Reader Value) (entries : List (Value × Raw)) : Checked Fields :=
  all (entries.map fun entry =>
    Prod.mk <$> propertyName entry.1 <*> (property entry.2).inside (.under entry.1))

/-- A property with so many levels left, its own included. -/
def property : Nat → Reader Value
  | 0, _ => defect .tooDeep
  | levels + 1, raw =>
    match raw.items?, raw.entries?, raw with
    | some items, _, _ =>
      ofNearest .list <| (all (items.zipIdx.map fun item =>
        (property levels item.1).inside (.item item.2))).map .list
    | none, some entries, _ => ofNearest .map ((bag (property levels) entries).map .map)
    | none, none, .value v => accept v
    | none, none, _ => refuse (issuesByKind none [])

/-- At how many levels properties may stand. -/
def mostLevels : Nat := 255

/-- A bag of properties. -/
def properties : Reader Fields := fun raw =>
  match raw.entries? with
  | some entries => bag (property mostLevels) entries
  | none => defect .notMap

end Reader

end KnowledgeGraph
