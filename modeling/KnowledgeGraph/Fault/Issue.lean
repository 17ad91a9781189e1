import KnowledgeGraph.Time.Reading
import KnowledgeGraph.Value.Display
/-!
# Issues with input

When a record is read, each field that does not fit its kind is one
issue: the way to the field and the defect found there. A defect has a
code and a message.
-/

namespace KnowledgeGraph

/-- The kinds of property value besides null. -/
inductive PropertyKind where
  | truth
  | integer
  | number
  | text
  | list
  | map
deriving DecidableEq

namespace PropertyKind

def all : List PropertyKind := [truth, integer, number, text, list, map]

/-- How a kind is named on the way to a value that is of none. -/
def label : PropertyKind → String
  | truth => "bool"
  | integer => "int"
  | number => "float"
  | text => "str"
  | list => "list[nullable[union[bool,int,float,str,list[...],dict[str,...]]]]"
  | map => "dict[str,...]"

end PropertyKind

/-- A step on the way to a value. -/
inductive Place where
  /-- a field, or the value under a name -/
  | field (name : String)
  /-- an item of a list, or the value under a number -/
  | item (index : Int)
  /-- the name that a value stands under, and not the value -/
  | name
  /-- the value, if it were a property of this kind -/
  | reading (kind : PropertyKind)
deriving DecidableEq

/-- The value under a name of any kind. -/
def Place.under : Value → Place
  | .bool b => .item (if b then 1 else 0)
  | .int n => if isWordSized n then .item n else .field (toString n)
  | v => .field v.words

/-- The kinds of record that are read field by field. -/
inductive RecordKind where
  | entity
  | relationship
  | path
  | query
  | result
  | planStep
  | plan
  | settings
  /-- how one option of a command line is written -/
  | lineOption
deriving DecidableEq

def RecordKind.name : RecordKind → String
  | entity => "Entity"
  | relationship => "Relationship"
  | path => "GraphPath"
  | query => "GraphQuery"
  | result => "GraphQueryResult"
  | planStep => "PlanStep"
  | plan => "QueryPlan"
  | settings => "Settings"
  | lineOption => "_CliArg"

/-- What is wrong with a type label. -/
inductive LabelDefect where
  | blank
  | tooLong
  | characters
deriving DecidableEq

/-- A rule of the domain that input broke. -/
inductive BrokenRule where
  | label (kind : RecordKind) (defect : LabelDefect)
  /-- a path has one entity more than relationships -/
  | pathShape (entities relationships : Nat)
deriving DecidableEq

def BrokenRule.message : BrokenRule → String
  | label kind .blank => s!"{kind.name} type cannot be empty or whitespace"
  | label kind .tooLong => s!"{kind.name} type must not exceed 100 characters"
  | label kind .characters =>
    s!"{kind.name} type must contain only alphanumeric characters and underscores"
  | pathShape entities relationships =>
    s!"Path with {relationships} relationships needs {relationships + 1} entities, got {entities}"

/-- What is wrong with a value. -/
inductive Defect where
  | missing
  | notText
  | notNumber
  | unreadableNumber
  | notInteger
  | unreadableInteger
  | oversizedInteger
  | fractional
  | notFinite
  | notTruth
  | unreadableTruth
  | notMap
  | notList
  | notRecord (kind : RecordKind)
  | notToken
  /-- a property holds others at too many levels -/
  | tooDeep
  | notTimestamp
  | badTimestamp (reason : TimestampDefect)
  | below (least : Int)
  | notAbove (bound : Int)
  | above (greatest : Int)
  | broken (rule : BrokenRule)
  | frozen
  /-- none of these words -/
  | notOneOf (words : List String)
deriving DecidableEq

namespace Defect

def code : Defect → String
  | missing => "missing"
  | notText => "string_type"
  | notNumber => "float_type"
  | unreadableNumber => "float_parsing"
  | notInteger => "int_type"
  | unreadableInteger => "int_parsing"
  | oversizedInteger => "int_parsing_size"
  | fractional => "int_from_float"
  | notFinite => "finite_number"
  | notTruth => "bool_type"
  | unreadableTruth => "bool_parsing"
  | notMap => "dict_type"
  | notList => "list_type"
  | notRecord _ => "model_type"
  | notToken => "is_instance_of"
  | tooDeep => "recursion_loop"
  | notTimestamp => "datetime_type"
  | badTimestamp reason => reason.code
  | below _ => "greater_than_equal"
  | notAbove _ => "greater_than"
  | above _ => "less_than_equal"
  | broken _ => "value_error"
  | frozen => "frozen_instance"
  | notOneOf _ => "literal_error"

def message : Defect → String
  | missing => "Field required"
  | notText => "Input should be a valid string"
  | notNumber => "Input should be a valid number"
  | unreadableNumber => "Input should be a valid number, unable to parse string as a number"
  | notInteger => "Input should be a valid integer"
  | unreadableInteger => "Input should be a valid integer, unable to parse string as an integer"
  | oversizedInteger => "Unable to parse input string as an integer, exceeded maximum size"
  | fractional => "Input should be a valid integer, got a number with a fractional part"
  | notFinite => "Input should be a finite number"
  | notTruth => "Input should be a valid boolean"
  | unreadableTruth => "Input should be a valid boolean, unable to interpret input"
  | notMap => "Input should be a valid dictionary"
  | notList => "Input should be a valid list"
  | notRecord kind => s!"Input should be a valid dictionary or instance of {kind.name}"
  | notToken => "Input should be an instance of CancellationToken"
  | tooDeep => "Recursion error - cyclic reference detected"
  | notTimestamp => "Input should be a valid datetime"
  | badTimestamp reason => reason.message
  | below least => s!"Input should be greater than or equal to {least}"
  | notAbove bound => s!"Input should be greater than {bound}"
  | above greatest => s!"Input should be less than or equal to {greatest}"
  | broken rule => s!"Value error, {rule.message}"
  | frozen => "Instance is frozen"
  | notOneOf words => "Input should be " ++ " or ".intercalate (words.map Text.quoted)

end Defect

/-- A defect and where it was found. -/
structure Issue where
  path : List Place
  defect : Defect
deriving DecidableEq

/-- The same issue seen from one step further out. -/
def Issue.inside (place : Place) (issue : Issue) : Issue :=
  { issue with path := place :: issue.path }

end KnowledgeGraph
