import KnowledgeGraph.Fault.Basic
/-!
# Attributes set afterwards

A record does not change once it is read: setting a field is refused, and
so is any other name that could be one. What is named behind an
underscore is no field and may be set. A few such names belong to the
record itself, and what is set under them shows (`Assigned.set`).
-/

namespace KnowledgeGraph

/-- What was set of a record after it was read. -/
structure Assigned where
  /-- all attributes, if others were put in their place -/
  replaced : Option Fields
  /-- the names that count as given, if others were put in their place -/
  given : Option Value
deriving DecidableEq

namespace Assigned

def nothing : Assigned := ⟨none, none⟩

/-- The names that only say what is in others. -/
def computedNames : List String := ["__fields__", "__fields_set__"]

/-- One attribute set. -/
def set (kind : RecordKind) (a : Assigned) (name : String) (v : Value) : Except Fault Assigned :=
  if !name.startsWith "_" then .error (.invalid kind [⟨[.field name], .frozen⟩])
  else if computedNames.contains name then .error (.computed kind name)
  else if name = "__class__" then .error .wrongArguments
  else if name = "__weakref__" then .error (.unwritable kind name)
  else if name = "__pydantic_fields_set__" then .ok { a with given := some v }
  else if name = "__dict__" then
    match v with
    | .map fields => .ok { a with replaced := some fields }
    | _ => .error .wrongArguments
  else .ok a

/-- Attributes set one by one. The first that cannot be set counts. -/
def ofFields (kind : RecordKind) (fields : Fields) : Except Fault Assigned :=
  fields.foldlM (fun a f => a.set kind f.1 f.2) nothing

/-- Whether a name counts as given, if it was or was not. -/
def holds (a : Assigned) (name : String) (was : Bool) : Except Fault Bool :=
  match a.given with
  | none => .ok was
  | some (.text text) => .ok ((text.splitOn name).length ≠ 1)
  | some (.list items) => .ok (items.contains (.text name))
  | some (.map fields) => .ok (fields.any (·.1 = name))
  | some _ => .error .wrongArguments

/-- What is named without an underscore in front cannot be set. -/
theorem set_eq_error {kind : RecordKind} {a : Assigned} {name : String} {v : Value}
    (h : name.startsWith "_" = false) :
    a.set kind name v = .error (.invalid kind [⟨[.field name], .frozen⟩]) := by
  simp [set, h]

end Assigned

end KnowledgeGraph
