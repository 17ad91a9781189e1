import KnowledgeGraph.Number.Format
import KnowledgeGraph.Text.Quoted
import KnowledgeGraph.Value.Basic
/-!
# Values in messages

How a value is shown to people: lists in brackets, maps in braces, texts
in quotes wherever they stand inside something else. A text by itself is
shown as it is (`Value.words`). `Value.kindName` names a value's kind, and
`Value.isVoid` says which values count as saying nothing.
-/

namespace KnowledgeGraph

namespace Value

mutual

/-- A value with all texts in it in quotes. -/
def display : Value → String
  | null => "None"
  | bool b => if b then "True" else "False"
  | int n => toString n
  | num x => String.ofList x.text
  | text s => Text.quoted s
  | list items => "[" ++ ", ".intercalate (displayItems items) ++ "]"
  | map fields => "\x7b" ++ ", ".intercalate (displayFields fields) ++ "\x7d"

def displayItems : List Value → List String
  | [] => []
  | v :: rest => display v :: displayItems rest

def displayFields : Fields → List String
  | [] => []
  | (k, v) :: rest => (Text.quoted k ++ ": " ++ display v) :: displayFields rest

end

/-- A value as part of a sentence: a text as it is. -/
def words : Value → String
  | text s => s
  | v => v.display

/-- What the kind of a value is called. -/
def kindName : Value → String
  | null => "NoneType"
  | bool _ => "bool"
  | int _ => "int"
  | num _ => "float"
  | text _ => "str"
  | list _ => "list"
  | map _ => "dict"

/-- Whether a value says nothing: null, falsehood, zero, or something
empty. -/
def isVoid : Value → Bool
  | null => true
  | bool b => !b
  | int n => n = 0
  | num x => x.eqInt 0
  | text s => s.isEmpty
  | list items => items.isEmpty
  | map fields => fields.isEmpty

end Value

end KnowledgeGraph
