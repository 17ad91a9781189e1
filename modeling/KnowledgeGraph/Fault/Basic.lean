import KnowledgeGraph.Fault.Failure
import KnowledgeGraph.Fault.Issue
import KnowledgeGraph.Fault.Settings
/-!
# Faults

All the ways in which an operation ends without an answer. Each has a
message; which of them a caller sees is the subject of the modules that
raise them.
-/

namespace KnowledgeGraph

/-- What the database's own driver reports. -/
inductive DatabaseFault where
  /-- the server refused a statement, with its code; what it says of it
  should be a text -/
  | refused (code message : Value)
  | unavailable (text : String)
  | sessionExpired (text : String)
deriving DecidableEq

inductive Fault where
  /-- a record could not be read -/
  | invalid (kind : RecordKind) (issues : List Issue)
  | failed (failure : Failure)
  /-- a row or a map lacks a key -/
  | missingKey (key : Value)
  /-- an integer is beyond the range of doubles -/
  | overflow
  /-- an infinity would have to be an integer -/
  | infinite
  /-- what is not a number would have to be an integer -/
  | notANumber
  /-- an integer has too many digits to be written -/
  | oversized
  /-- a call was given arguments that it does not take -/
  | wrongArguments
  /-- an item that should be a name and a value has another size -/
  | notPair (index size : Nat)
  /-- what should be a name and a value falls into as many parts as this -/
  | notTwo (parts : Nat)
  /-- values of this one's kind have no such operation -/
  | lacking (value : Value) (operation : String)
  /-- this is the name of no failure code -/
  | unknownCode (name : Value)
  | database (fault : DatabaseFault)
  | badVariable (defect : VariableDefect)
  | settings (defect : SettingsDefect)
  /-- an option is spelled as others are already -/
  | takenSpellings (option : String) (taken : List String)
  /-- options begin with a text, and it has no character -/
  | noCharacter
  /-- a path begins at the home of someone unknown -/
  | homeless
  /-- this many directories cannot be gone through -/
  | badDepth
  /-- a record has no such attribute any more -/
  | stripped (kind : RecordKind) (name : String)
  /-- an attribute of a record cannot be set -/
  | unwritable (kind : RecordKind) (name : String)
  /-- an attribute of a record is only computed -/
  | computed (kind : RecordKind) (name : String)
  /-- the program ends with this status -/
  | ended (status : Nat)
  /-- a fault of a kind this library does not know, passed through -/
  | foreign (kind : String) (text : String)
  /-- a search used up its allotment of steps -/
  | exhausted
deriving DecidableEq

namespace Fault

/-- A cancelled operation. -/
def cancelled : Fault := failed .cancelled

/-- A refused argument. -/
def argument (parameter : String) (message : Option String) : Fault :=
  failed (.argument (.text parameter) ((message.map Value.text).getD .null))

/-- An argument that is not there. -/
def missing (parameter : String) : Fault := argument parameter none

/-- An argument that must be there. -/
def require {α : Type} (parameter : String) : Option α → Except Fault α
  | some a => .ok a
  | none => .error (missing parameter)

/-- The code of a name that a caller gave. -/
def codeOfName (name : Value) : Except Fault FailureCode :=
  match FailureCode.ofName? name with
  | some code => .ok code
  | none => .error (unknownCode name)

def message : Fault → String
  | invalid kind _ => kind.name
  | failed failure => failure.text
  | missingKey key => key.display
  | overflow => "int too large to convert to float"
  | infinite => "cannot convert float infinity to integer"
  | notANumber => "cannot convert float NaN to integer"
  | oversized =>
    "Exceeds the limit (4300 digits) for integer string conversion; "
      ++ "use sys.set_int_max_str_digits() to increase the limit"
  | wrongArguments => "wrong arguments"
  | notPair index size =>
    s!"dictionary update sequence element #{index} has length {size}; 2 is required"
  | notTwo parts =>
    if parts < 2 then s!"not enough values to unpack (expected 2, got {parts})"
    else "too many values to unpack (expected 2)"
  | lacking value operation =>
    s!"'{value.kindName}' object has no attribute '{operation}'"
  | unknownCode name => s!"{name.display} is not a valid ErrorCode"
  | database (.refused _ message) => message.words
  | database (.unavailable text) => text
  | database (.sessionExpired text) => text
  | badVariable defect => defect.message
  | settings defect => defect.message
  | takenSpellings option [spelling] => s!"argument {option}: conflicting option string: {spelling}"
  | takenSpellings option taken =>
    s!"argument {option}: conflicting option strings: " ++ ", ".intercalate taken
  | noCharacter => "string index out of range"
  | homeless => "Could not determine home directory."
  | badDepth =>
    "Stop argument for islice() must be None or an integer: 0 <= x <= sys.maxsize."
  | stripped kind name => s!"'{kind.name}' object has no attribute '{name}'"
  | unwritable kind name => s!"attribute '{name}' of '{kind.name}' objects is not writable"
  | computed kind name => s!"property '{name}' of '{kind.name}' object has no setter"
  | ended status => toString status
  | foreign _ text => text
  | exhausted => "search exhausted its allotment"

/-- Whether a fault can be shown. One of the database's cannot if what it
says is no text. -/
def isShown : Fault → Bool
  | database (.refused _ message) => message.text?.isSome
  | _ => true

end Fault

end KnowledgeGraph
