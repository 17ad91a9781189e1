import KnowledgeGraph.Fault.Basic
import KnowledgeGraph.Input.Raw
import KnowledgeGraph.Value.Matching
/-!
# Bags

A bag holds what stands under names. It comes as a map, or as pairs of a
name and a value, where a pair is anything that falls into two parts.
Names that are worth the same number are one name; of two values under
one name the later counts, in the place of the earlier.
-/

namespace KnowledgeGraph

/-- What stands under names of any kind, each name once. -/
abbrev Bag := List (Value × Raw)

namespace Bag

/-- The name and the value that an item consists of. What cannot be taken
apart, or cannot be a name, is a wrong argument. -/
def pair (index : Nat) (item : Raw) : Except Fault (Value × Raw) :=
  match item.parts? with
  | some [.value name, raw] => if name.isKey then .ok (name, raw) else .error .wrongArguments
  | some [_, _] | none => .error .wrongArguments
  | some parts => .error (.notPair index parts.length)

/-- A bag with something under a name. A name that is there keeps its
spelling. -/
def put (entry : Value × Raw) : Bag → Bag
  | [] => [entry]
  | held :: rest =>
    if held.1.numericEq entry.1 then (held.1, entry.2) :: rest else held :: put entry rest

/-- The bag of pairs. The first item that is no pair counts. -/
def ofPairs (items : List Raw) : Except Fault Bag :=
  (items.zipIdx.mapM fun item => pair item.2 item.1).map fun pairs =>
    pairs.foldl (fun bag entry => bag.put entry) []

/-- The bag that something stands for. -/
def ofRaw (raw : Raw) : Except Fault Bag :=
  match raw.entries?, raw.parts? with
  | some entries, _ => .ok entries
  | none, some items => ofPairs items
  | none, none => .error .wrongArguments

/-- What stands under a text, if anything does. -/
def find? (bag : Bag) (name : String) : Option Raw := (Raw.named bag).lookup name

/-- What stands under a text, which has to be there. -/
def get (bag : Bag) (name : String) : Except Fault Raw :=
  (bag.find? name).elim (.error (.missingKey (.text name))) .ok

/-- The bag but for some names. -/
def without (reserved : List String) (bag : Bag) : Bag :=
  bag.filter fun entry => !(reserved.map Value.text).contains entry.1

end Bag

end KnowledgeGraph
