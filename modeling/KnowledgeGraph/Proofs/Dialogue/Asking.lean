import KnowledgeGraph.Proofs.Dialogue.Playing
/-!
# What a dialogue asks

A dialogue sees of its answers only those to questions it asks. If all of
these are of some kind (`Asks`), answers that agree on that kind make no
difference (`Asks.play_eq`).

Or it may ask for nothing twice (`AsksAnew`). That depends on what it keeps
of the answers, so it is told with the questions asked before and with what
holds of them in the end.

A loop may leave what it does last to a dialogue that follows it
(`iterate_bind`). So the questions asked in the end can be told from those
asked in its turns.
-/

namespace KnowledgeGraph

namespace Dialogue

variable {Question : Type} {Answer : Question → Type} {α β σ : Type} {asks : Question → Prop}

/-! ## Questions of one kind -/

/-- Whether all questions of a dialogue are of a kind, whatever they are
answered. -/
def Asks (asks : Question → Prop) : Dialogue Question Answer α → Prop
  | done _ => True
  | fail _ => True
  | poll next => next.Asks asks
  | ask q next => asks q ∧ ∀ a, (next a).Asks asks

theorem Asks.bind {d : Dialogue Question Answer α} {k : α → Dialogue Question Answer β}
    (h : d.Asks asks) (hk : ∀ a, (k a).Asks asks) : (d.bind k).Asks asks := by
  induction d with
  | done a => exact hk a
  | fail f => trivial
  | poll next ih => exact ih h
  | ask q next ih => exact ⟨h.1, fun a => ih a (h.2 a)⟩

/-- A loop asks what its turns ask. -/
theorem Asks.iterate {turn : σ → Dialogue Question Answer (Turn σ α)}
    (h : ∀ s, (turn s).Asks asks) (budget : Nat) (s : σ) : (iterate turn budget s).Asks asks := by
  induction budget generalizing s with
  | zero => trivial
  | succ budget ih =>
    refine (h s).bind fun t => ?_
    cases t with
    | again next => exact ih next
    | finished a => trivial

/-- **Answers make no difference to a dialogue that does not ask for
them.** -/
theorem Asks.play_eq {d : Dialogue Question Answer α} (h : d.Asks asks)
    {answer answer' : (q : Question) → Except Fault (Answer q)}
    (hsame : ∀ q, asks q → answer q = answer' q) : d.play answer = d.play answer' := by
  induction d with
  | done a => rfl
  | fail f => rfl
  | poll next ih => exact ih h
  | ask q next ih =>
    have hq : answer q = answer' q := hsame q h.1
    cases hanswer : answer q with
    | error f => rw [play_ask_of_error hanswer, play_ask_of_error (hq ▸ hanswer)]
    | ok a => rw [play_ask_of_ok hanswer, play_ask_of_ok (hq ▸ hanswer), ih a (h.2 a)]

/-! ## Nothing asked twice -/

/-- Whether a dialogue asks no question of a kind that was asked before,
and ends with what should hold of its result and of all that was asked, the
latest first. -/
def AsksAnew (kind : Question → Prop) (post : List Question → α → Prop) :
    List Question → Dialogue Question Answer α → Prop
  | asked, done a => post asked a
  | _, fail _ => True
  | asked, poll next => next.AsksAnew kind post asked
  | asked, ask q next => (kind q → q ∉ asked) ∧ ∀ a, (next a).AsksAnew kind post (q :: asked)

section AsksAnew

variable {kind : Question → Prop} {post : List Question → α → Prop}
  {post' : List Question → β → Prop} {asked : List Question}

theorem asksAnew_poll {d : Dialogue Question Answer α} :
    (poll d).AsksAnew kind post asked ↔ d.AsksAnew kind post asked := Iff.rfl

theorem AsksAnew.bind {d : Dialogue Question Answer α} {k : α → Dialogue Question Answer β}
    (h : d.AsksAnew kind post asked)
    (hk : ∀ asked a, post asked a → (k a).AsksAnew kind post' asked) :
    (d.bind k).AsksAnew kind post' asked := by
  induction d generalizing asked with
  | done a => exact hk asked a h
  | fail f => trivial
  | poll next ih => exact ih h
  | ask q next ih => exact ⟨h.1, fun a => ih a (h.2 a)⟩

/-- **A loop asks nothing twice** if its turns keep an invariant by which
they ask nothing that was asked before. -/
theorem AsksAnew.iterate {turn : σ → Dialogue Question Answer (Turn σ α)}
    (inv : List Question → σ → Prop)
    (hturn : ∀ asked s, inv asked s → (turn s).AsksAnew kind
      (fun asked t => ∀ s', t = .again s' → inv asked s') asked)
    (budget : Nat) {s : σ} (hs : inv asked s) :
    (iterate turn budget s).AsksAnew kind (fun _ _ => True) asked := by
  induction budget generalizing asked s with
  | zero => trivial
  | succ budget ih =>
    refine (hturn asked s hs).bind fun asked t ht => ?_
    cases t with
    | again next => exact ih (ht next rfl)
    | finished a => trivial

/-- What is asked anew is asked once at most, however a run is answered and
wherever it ends. -/
theorem AsksAnew.count_le_one [DecidableEq Question] {d : Dialogue Question Answer α}
    (h : d.AsksAnew kind post asked) {q : Question} (hq : kind q) (hcount : asked.count q ≤ 1)
    (reply : Nat → (q : Question) → Except Fault (Answer q)) (token : Option Token)
    (begun : Nat) : asked.count q + (d.runFrom reply token begun).asked.count q ≤ 1 := by
  induction d generalizing asked begun with
  | done a => exact hcount
  | fail f => exact hcount
  | poll next ih =>
    rw [runFrom]
    cases checkToken token begun with
    | ok _ => exact ih h hcount begun
    | error f => exact hcount
  | ask p next ih =>
    obtain ⟨hnew, hnext⟩ := h
    have hfirst : (p :: asked).count q ≤ 1 := by
      by_cases hsame : p = q
      · subst hsame
        have hnone : asked.count p = 0 := List.count_eq_zero_of_not_mem (hnew hq)
        rw [List.count_cons_self]
        omega
      · rwa [List.count_cons_of_ne hsame]
    -- what comes after the first question is counted by the induction
    have hmove : ∀ rest : List Question,
        asked.count q + (p :: rest).count q = (p :: asked).count q + rest.count q := by
      intro rest
      rw [List.count_cons, List.count_cons]
      omega
    rw [runFrom]
    dsimp only
    split
    · rename_i a _
      rw [hmove]
      exact ih a (hnext a) hfirst (begun + 1)
    · rw [hmove]
      exact hfirst

end AsksAnew

/-! ## The end of a loop -/

/-- What a turn leads to, with something done about its result. -/
def Turn.conclude (finish : α → Dialogue Question Answer β) :
    Turn σ α → Dialogue Question Answer (Turn σ β)
  | .again s => done (.again s)
  | .finished a => (finish a).bind fun b => done (.finished b)

/-- **What follows a loop can as well be done in its last turn.** -/
theorem iterate_bind (turn : σ → Dialogue Question Answer (Turn σ α))
    (finish : α → Dialogue Question Answer β) (budget : Nat) (s : σ) :
    (iterate turn budget s).bind finish =
      iterate (fun s => (turn s).bind (Turn.conclude finish)) budget s := by
  induction budget generalizing s with
  | zero => rfl
  | succ budget ih =>
    rw [iterate, iterate, bind_assoc, bind_assoc]
    congr
    funext t
    cases t with
    | again next => exact ih next
    | finished a =>
      rw [Turn.conclude, bind_assoc]
      exact (bind_done (finish a)).symm

end Dialogue

end KnowledgeGraph
