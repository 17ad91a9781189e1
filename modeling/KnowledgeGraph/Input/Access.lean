import KnowledgeGraph.Input.Bag
/-!
# Taking values apart

Whoever is handed a value takes from it what stands under a name, or the
parts that it falls into, and is told what is not there
(`Value.need_map`).
-/

namespace KnowledgeGraph

namespace Value

/-- What stands under a name, if anything does. -/
def member? : Value → String → Option Value
  | map fields, name => fields.lookup name
  | _, _ => none

/-- What stands under a name, which has to be there. Only a map can be
asked by names. -/
def need : Value → String → Except Fault Value
  | map fields, name => (fields.lookup name).elim (.error (.missingKey (.text name))) .ok
  | _, _ => .error .wrongArguments

/-- What a value falls into: a list into its items, a text into its
characters, a map into its names. -/
def parts : Value → Except Fault (List Value)
  | list items => .ok items
  | text s => .ok (s.toList.map fun c => text (.singleton c))
  | map fields => .ok (fields.map fun f => text f.1)
  | _ => .error .wrongArguments

/-- The two parts that a value has to fall into. -/
def two (v : Value) : Except Fault (Value × Value) := do
  match ← v.parts with
  | [first, second] => return (first, second)
  | parts => .error (.notTwo parts.length)

/-- The record that a value stands for: a map, or pairs of a text and a
value. -/
def record (v : Value) : Except Fault Record := do
  (← Bag.ofRaw (.value v)).mapM fun
    | (.text name, raw) => .ok (name, raw)
    | _ => .error .wrongArguments

/-- In a map all that is missing is the name. -/
theorem need_map (fields : Fields) (name : String) :
    (map fields).need name =
      match fields.lookup name with
      | some v => .ok v
      | none => .error (.missingKey (.text name)) := by
  rw [need]
  cases fields.lookup name <;> rfl

end Value

end KnowledgeGraph
