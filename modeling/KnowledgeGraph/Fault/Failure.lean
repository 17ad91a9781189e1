import KnowledgeGraph.Value.Display
/-!
# Coded failures

What the engine reports when it refuses or gives up: a code for
machines, a message for people and details. The codes are few; what a
failure is about is its `kind`. Message and details are mostly a text and
a map, but a caller may give other values.
-/

namespace KnowledgeGraph

/-- The codes of failures. -/
inductive FailureCode where
  | invalidArgument
  | queryTimeout
  | queryCancelled
  | repositoryUnavailable
  | repositoryReadFailed
deriving DecidableEq

namespace FailureCode

def name : FailureCode → String
  | invalidArgument => "INVALID_ARGUMENT"
  | queryTimeout => "QUERY_TIMEOUT"
  | queryCancelled => "QUERY_CANCELLED"
  | repositoryUnavailable => "REPOSITORY_UNAVAILABLE"
  | repositoryReadFailed => "REPOSITORY_READ_FAILED"

def all : List FailureCode :=
  [invalidArgument, queryTimeout, queryCancelled, repositoryUnavailable, repositoryReadFailed]

/-- The code that a value names. -/
def ofName? (name : Value) : Option FailureCode := all.find? fun code => .text code.name = name

theorem ofName?_name (code : FailureCode) : ofName? (.text code.name) = some code := by
  cases code <;> rfl

end FailureCode

/-- What a failure is about. -/
inductive FailureKind where
  | general
  /-- an argument is missing or out of range -/
  | argument (parameter : Value)
  | timeout
  | cancellation
  | repository
deriving DecidableEq

structure Failure where
  kind : FailureKind
  code : FailureCode
  message : Value
  details : Value
deriving DecidableEq

namespace Failure

/-- The message behind the code. -/
def text (f : Failure) : String := s!"[{f.code.name}] {f.message.words}"

/-- Details as they are kept: those that say nothing are an empty map. -/
def keptDetails (details : Value) : Value := if details.isVoid then .map [] else details

def general (code : FailureCode) (message details : Value) : Failure :=
  ⟨.general, code, message, keptDetails details⟩

/-- A refused argument. With no message, or one that says nothing, the
argument is missing. -/
def argument (parameter message : Value) : Failure :=
  let missing := s!"Argument '{parameter.words}' must not be None"
  ⟨.argument parameter, .invalidArgument, if message.isVoid then .text missing else message,
    .map [("param", parameter)]⟩

def timeout (message details : Value) : Failure :=
  ⟨.timeout, .queryTimeout, message, keptDetails details⟩

def cancellation (message details : Value) : Failure :=
  ⟨.cancellation, .queryCancelled, message, keptDetails details⟩

/-- What a cancelled operation reports unless it says more. -/
def cancelled : Failure := cancellation (.text "Operation was cancelled") .null

def repository (message details : Value) (code : FailureCode) : Failure :=
  ⟨.repository, code, message, keptDetails details⟩

/-- A failure never goes without details. -/
theorem keptDetails_ne_null (details : Value) : keptDetails details ≠ .null := by
  unfold keptDetails
  split
  · simp
  · rintro rfl
    simp_all [Value.isVoid]

end Failure

end KnowledgeGraph
