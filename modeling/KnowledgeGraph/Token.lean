import KnowledgeGraph.Fault.Basic
/-!
# Cancellation tokens

A caller hands a token to an operation and may cancel it at any moment.
What matters to the operation is only how many calls it had made to its
repository by then, so a token is the number of the call during which it
is cancelled: zero before the first, none if never. Once cancelled it
stays so (`isCancelledAt_mono`).

What else a caller hands over in place of a token does not stop an
operation before it is looked at, and then ends it with a fault of its
own.
-/

namespace KnowledgeGraph

structure Token where
  /-- the call during which the token is cancelled -/
  cancelledDuring : Option Nat
  /-- what a caller handed over in place of a token, if it did -/
  substitute : Option Value
deriving DecidableEq

namespace Token

/-- A token that nobody cancels. -/
def live : Token := ⟨none, none⟩

/-- A token cancelled before anything happens. -/
def cancelled : Token := ⟨some 0, none⟩

/-- Something in place of a token. -/
def inPlace (v : Value) : Token := ⟨none, some v⟩

/-- Whether the token is cancelled once so many calls have begun. -/
def isCancelledAt (t : Token) (calls : Nat) : Bool :=
  match t.cancelledDuring with
  | some call => call ≤ calls
  | none => false

theorem isCancelledAt_mono {t : Token} {m n : Nat} (h : m ≤ n)
    (hm : t.isCancelledAt m = true) : t.isCancelledAt n = true := by
  unfold isCancelledAt at *
  split at hm <;> simp_all
  omega

/-- The token after its caller cancels it at some call. Cancelling twice
is cancelling once. -/
def cancelAt (t : Token) (call : Nat) : Token :=
  if t.isCancelledAt call then t else { t with cancelledDuring := some call }

/-- The fault of an operation that finds its token cancelled, or that
something else was handed over. -/
def check (t : Token) (calls : Nat) : Except Fault Unit :=
  match t.substitute with
  | some v => .error (.lacking v "raise_if_cancelled")
  | none => if t.isCancelledAt calls then .error .cancelled else .ok ()

/-- The fault of cancelling what is no token, during the call at which it
is to be cancelled. -/
def strike (t : Token) (call : Nat) : Except Fault Unit :=
  match t.substitute with
  | some v => if t.cancelledDuring = some call then .error (.lacking v "cancel") else .ok ()
  | none => .ok ()

/-- How a token shows itself. -/
def text (t : Token) (calls : Nat) : String :=
  let state := if t.isCancelledAt calls then "True" else "False"
  s!"CancellationToken(cancelled={state})"

end Token

/-- Whether an operation's token, if it has one, is cancelled. -/
def isCancelledAt (token : Option Token) (calls : Nat) : Bool :=
  token.any (·.isCancelledAt calls)

/-- The fault of an operation that finds its token, if it has one,
cancelled. -/
def checkToken (token : Option Token) (calls : Nat) : Except Fault Unit :=
  token.elim (.ok ()) (·.check calls)

/-- A token of its kind lets an operation go on until it is cancelled. -/
theorem checkToken_issued {t : Token} (h : t.substitute = none) (calls : Nat) :
    checkToken (some t) calls =
      if isCancelledAt (some t) calls then .error .cancelled else .ok () := by
  simp only [checkToken, Option.elim, Token.check, h, isCancelledAt, Option.any]
  rfl

end KnowledgeGraph
