import KnowledgeGraph.Fault.Basic
/-!
# Failures from arguments

A caller can make a failure of any kind from named arguments. A general
failure and a refused argument are asked for by what they need, and what
else is given does not count. The other kinds need a message, unless they
have one of their own, and some have their own code. A call that leaves
out the message, or gives a code that is not taken, has wrong arguments,
and makes nothing (`FailureArguments.timeout_eq_ok_iff`).
-/

namespace KnowledgeGraph

/-- The arguments of a call that makes a failure, where they are given. -/
structure FailureArguments where
  parameter : Option Value
  message : Option Value
  details : Option Value
  code : Option Value
deriving DecidableEq

namespace FailureArguments

variable {α : Type}

/-- An argument that is asked for by its name. -/
def named (name : String) (argument : Option Value) : Except Fault Value :=
  argument.elim (.error (.missingKey (.text name))) .ok

/-- An argument that is needed. -/
def need (argument : Option Value) : Except Fault Value :=
  argument.elim (.error .wrongArguments) .ok

/-- An argument that is not taken. -/
def refuse (argument : Option α) : Except Fault Unit :=
  if argument.isSome then .error .wrongArguments else .ok ()

/-- The code that is given, which has to be one. -/
def givenCode (a : FailureArguments) : Except Fault (Option FailureCode) :=
  a.code.mapM Fault.codeOfName

def general (a : FailureArguments) : Except Fault Failure := do
  let code ← Fault.codeOfName (← named "code" a.code)
  return .general code (← named "message" a.message) (a.details.getD .null)

def argument (a : FailureArguments) : Except Fault Failure := do
  return .argument (← named "param" a.parameter) (a.message.getD .null)

def timeout (a : FailureArguments) : Except Fault Failure := do
  refuse (← a.givenCode)
  return .timeout (← need a.message) (a.details.getD .null)

/-- A cancellation says why if it is told, and else that it was one. -/
def cancellation (a : FailureArguments) : Except Fault Failure := do
  refuse (← a.givenCode)
  return .cancellation (a.message.getD Failure.cancelled.message) (a.details.getD .null)

/-- A failure of the repository is that it cannot be reached unless its
code says otherwise. -/
def repository (a : FailureArguments) : Except Fault Failure := do
  let code ← a.givenCode
  return .repository (← need a.message) (a.details.getD .null) (code.getD .repositoryUnavailable)

theorem timeout_eq_ok_iff {a : FailureArguments} {f : Failure} :
    a.timeout = .ok f ↔ a.code = none ∧
      ∃ message, a.message = some message ∧ f = .timeout message (a.details.getD .null) := by
  obtain ⟨parameter, message, details, code⟩ := a
  cases code with
  | none =>
    cases message <;>
      simp [timeout, refuse, need, givenCode, bind, Except.bind, pure, Except.pure, eq_comm]
  | some name =>
    cases h : Fault.codeOfName name <;>
      simp [timeout, refuse, givenCode, h, bind, Except.bind, Functor.map, Except.map]

end FailureArguments

end KnowledgeGraph
