import KnowledgeGraph.Fault.Basic
import KnowledgeGraph.Number.Binary64
import KnowledgeGraph.Text.KeyWords
import KnowledgeGraph.Text.LetterCase
import KnowledgeGraph.Text.OpaqueToken
import KnowledgeGraph.Value.Matching
/-!
# How selective a filter is

No statistics are kept, so what share of all entities meets a filter is
read off its key and its value: identifiers are nearly unique, names
fairly so, and categories hardly tell entities apart. Of several classes
that fit a filter the first in this order counts: identifier, pattern,
naming, categorical, plain.
-/

namespace KnowledgeGraph

/-- What kind of property a filter is on. -/
inductive FilterClass where
  /-- nearly unique: an identifier's key, or a machine-made value -/
  | identifier
  /-- a wildcard pattern -/
  | pattern
  /-- a name of something -/
  | naming
  /-- one of few values -/
  | categorical
  | plain
deriving DecidableEq

namespace FilterClass

/-- The keys of identifiers that no word `id` gives away. -/
def identifierKeys : List String := ["email", "uuid", "guid", "key", "slug", "sku", "isbn"]

def namingKeys : List String :=
  ["name", "firstname", "lastname", "username", "fullname", "displayname"]

def categoricalKeys : List String :=
  ["country", "city", "state", "region", "status", "category", "gender", "type", "kind",
    "language", "currency", "department"]

/-- A key in lower case without the marks that join its words. -/
def bareKey (key : String) : String :=
  String.ofList ((Text.lower key.toList).filter fun c => c ≠ '_' && c ≠ '-')

/-- Whether one of a key's words is `id`. -/
def hasIdWord (key : String) : Bool :=
  (Text.keyWords key.toList).any fun word => Text.lower word = ['i', 'd']

/-- Whether a value looks like a machine-made identifier. -/
def isOpaque : Value → Bool
  | .text s => Text.isOpaqueToken s.toList
  | _ => false

/-- The class of a filter. -/
def ofFilter (key : String) (value : Value) : FilterClass :=
  if hasIdWord key || identifierKeys.contains (bareKey key) || isOpaque value then identifier
  else if value.pattern?.isSome then pattern
  else if namingKeys.contains (bareKey key) then naming
  else if categoricalKeys.contains (bareKey key) then categorical
  else plain

/-- The share of entities that meet a filter of a class. -/
def share : FilterClass → Binary64
  | identifier => .ofRatio false 1 1000
  | pattern => .ofRatio false 3 10
  | naming => .ofRatio false 1 10
  | categorical => .ofRatio false 8 10
  | plain => .ofRatio false 5 10

end FilterClass

/-- The share of entities estimated to meet a filter. -/
def selectivity (key : String) (value : Value) : Binary64 :=
  (FilterClass.ofFilter key value).share

/-- The share for a key as it is given. Only a text has a lower case to
be classed by. -/
def selectivityOf : (key value : Value) → Except Fault Binary64
  | .text key, value => .ok (selectivity key value)
  | other, _ => .error (.lacking other "lower")

/-- The share of entities estimated to be of one type. -/
def typeSelectivity : Binary64 := .ofRatio false 1 10

/-- A filter that leaves less than this share is worth an index. -/
def indexThreshold : Binary64 := .ofRatio false 2 10

end KnowledgeGraph
