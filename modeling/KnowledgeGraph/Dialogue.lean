import KnowledgeGraph.Token
/-!
# Dialogues with a repository

A search or a query does not hold the graph: it asks a repository, and
what it asks next depends on the answers. A dialogue is that behaviour by
itself, a tree of questions with a branch for every answer. Nothing is
fixed about who answers; `Dialogue.run` plays a dialogue against given
answers and keeps the questions in order.

Between questions a dialogue may poll, that is, end there with the fault
of a cancelled operation if its token is cancelled by then.
-/

namespace KnowledgeGraph

/-- A computation of an `α` that asks questions `q`, each answered by an
`Answer q`. -/
inductive Dialogue (Question : Type) (Answer : Question → Type) (α : Type) : Type where
  | done (a : α)
  | fail (f : Fault)
  /-- goes on unless the operation's token is cancelled -/
  | poll (next : Dialogue Question Answer α)
  | ask (q : Question) (next : Answer q → Dialogue Question Answer α)

namespace Dialogue

variable {Question : Type} {Answer : Question → Type} {α β : Type}

/-! ## Sequencing -/

def bind : Dialogue Question Answer α → (α → Dialogue Question Answer β) →
    Dialogue Question Answer β
  | done a, k => k a
  | fail f, _ => fail f
  | poll next, k => poll (next.bind k)
  | ask q next, k => ask q fun a => (next a).bind k

instance : Monad (Dialogue Question Answer) where
  pure := done
  bind := bind

/-- The outcome of a computation that asks nothing. -/
def ofExcept : Except Fault α → Dialogue Question Answer α
  | .ok a => done a
  | .error f => fail f

/-- One question. -/
def question (q : Question) : Dialogue Question Answer (Answer q) := ask q done

/-- Ends a cancelled operation. -/
def checkpoint : Dialogue Question Answer Unit := poll (done ())

/-! ## Loops -/

/-- What one turn of a loop leads to. -/
inductive Turn (σ α : Type) where
  | again (state : σ)
  | finished (a : α)

/-- Turns from a state until one finishes, at most as many as the budget
says. -/
def iterate {σ : Type} (turn : σ → Dialogue Question Answer (Turn σ α)) :
    Nat → σ → Dialogue Question Answer α
  | 0, _ => fail .exhausted
  | budget + 1, state =>
    (turn state).bind fun
      | .again next => iterate turn budget next
      | .finished a => done a

/-! ## Running -/

/-- How a dialogue went: what was asked, and how it ended. -/
structure Run (Question α : Type) where
  asked : List Question
  outcome : Except Fault α

/-- A dialogue played against answers under a token. The answer to a
question may depend on its number, counted from one. A fault in place of
an answer ends the dialogue. -/
def runFrom (answer : Nat → (q : Question) → Except Fault (Answer q)) (token : Option Token) :
    Nat → Dialogue Question Answer α → Run Question α
  | _, done a => ⟨[], .ok a⟩
  | _, fail f => ⟨[], .error f⟩
  | begun, poll next =>
    match checkToken token begun with
    | .ok () => runFrom answer token begun next
    | .error f => ⟨[], .error f⟩
  | begun, ask q next =>
    let struck := token.elim (.ok ()) (·.strike (begun + 1))
    match struck.bind fun () => answer (begun + 1) q with
    | .ok a =>
      let rest := runFrom answer token (begun + 1) (next a)
      ⟨q :: rest.asked, rest.outcome⟩
    | .error f => ⟨[q], .error f⟩

/-- A dialogue played from its beginning. -/
def run (answer : Nat → (q : Question) → Except Fault (Answer q)) (token : Option Token)
    (d : Dialogue Question Answer α) : Run Question α :=
  runFrom answer token 0 d

/-! ## Interpretation -/

/-- The same dialogue with each question put as a dialogue of other
questions. -/
def interpret {Question' : Type} {Answer' : Question' → Type}
    (put : (q : Question) → Dialogue Question' Answer' (Answer q)) :
    Dialogue Question Answer α → Dialogue Question' Answer' α
  | done a => done a
  | fail f => fail f
  | poll next => poll (next.interpret put)
  | ask q next => (put q).bind fun a => (next a).interpret put

/-! ## Laws -/

@[simp] theorem bind_done (d : Dialogue Question Answer α) : d.bind done = d := by
  induction d with
  | done _ => rfl
  | fail _ => rfl
  | poll _ ih => rw [bind, ih]
  | ask _ _ ih => simp only [bind, ih]

theorem bind_assoc {γ : Type} (d : Dialogue Question Answer α)
    (k : α → Dialogue Question Answer β) (l : β → Dialogue Question Answer γ) :
    (d.bind k).bind l = d.bind fun a => (k a).bind l := by
  induction d with
  | done _ => rfl
  | fail _ => rfl
  | poll _ ih => simp only [bind, ih]
  | ask _ _ ih => simp only [bind, ih]

end Dialogue

end KnowledgeGraph
