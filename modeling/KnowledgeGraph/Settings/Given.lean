import KnowledgeGraph.Input.Reader
/-!
# Arguments beside the settings

What a program gives beside the settings themselves says how they are
sought. Its names begin with an underscore, and null says as much as
nothing.
-/

namespace KnowledgeGraph

namespace Settings

/-- An argument, unless it is null. -/
def argument? (given : Record) (name : String) : Option Raw :=
  (given.lookup name).filter fun
    | .value .null => false
    | _ => true

/-- Whether an argument says yes, if it is there. -/
def flag (given : Record) (name : String) (default : Bool) : Bool :=
  ((argument? given name).map fun raw => !raw.isVoid).getD default

/-- The text that an argument is, if it is one. -/
def textArgument? (given : Record) (name : String) : Option String :=
  match argument? given name with
  | some (.value (.text s)) => some s
  | _ => none

/-- An argument that is counted with has to be no text, list or map,
unless it is an empty one. -/
def checkCount (given : Record) (name : String) : Except Fault Unit :=
  match argument? given name with
  | none => .ok ()
  | some raw => if raw.isVoid || raw.parts?.isNone then .ok () else .error .wrongArguments

/-- An argument that is null says nothing. -/
theorem argument?_null {given : Record} {name : String}
    (h : given.lookup name = some (.value .null)) : argument? given name = none := by
  simp [argument?, h]

end Settings

end KnowledgeGraph
