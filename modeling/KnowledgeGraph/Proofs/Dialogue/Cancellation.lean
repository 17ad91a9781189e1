import KnowledgeGraph.Dialogue
/-!
# Cancelled dialogues

A dialogue learns of its token in two ways only: it ends at the first
checkpoint, or at the first refused question, once the token is
cancelled. Whatever it gets to see before is what it would have seen
anyway, so a run that is not ended by its token has the outcome of one
that was left alone (`outcome_runFrom`).

Which questions may still be put after the cancellation is a matter of
where the checkpoints stand. `Guarded` says that every question of a kind
comes right after one.
-/

namespace KnowledgeGraph

namespace Dialogue

variable {Question : Type} {Answer : Question → Type} {α β σ : Type}

/-! ## All or nothing -/

/-- Replies that differ from given answers, if at all, by refusing some
questions put once the token is cancelled. -/
def Heeds (answer : (q : Question) → Except Fault (Answer q)) (token : Token)
    (reply : Nat → (q : Question) → Except Fault (Answer q)) : Prop :=
  ∀ call q, reply call q = answer q ∨
    (token.isCancelledAt call = true ∧ reply call q = .error .cancelled)

variable {answer : (q : Question) → Except Fault (Answer q)} {token : Token}
  {reply : Nat → (q : Question) → Except Fault (Answer q)}

theorem strike_issued (h : token.substitute = none) (call : Nat) : token.strike call = .ok () := by
  rw [Token.strike, h]

/-- **A dialogue is cancelled or complete**, from any point on. -/
theorem outcome_runFrom (issued : token.substitute = none) (h : Heeds answer token reply)
    (d : Dialogue Question Answer α) (begun : Nat) :
    (d.runFrom reply (some token) begun).outcome = .error .cancelled ∨
      (d.runFrom reply (some token) begun).outcome =
        (d.runFrom (fun _ => answer) (some .live) begun).outcome := by
  induction d generalizing begun with
  | done a => exact Or.inr rfl
  | fail f => exact Or.inr rfl
  | poll next ih =>
    have hlive : checkToken (some Token.live) begun = .ok () := rfl
    rw [runFrom, runFrom, hlive, checkToken_issued issued]
    by_cases hc : isCancelledAt (some token) begun
    · rw [if_pos hc]
      exact Or.inl rfl
    · rw [if_neg hc]
      exact ih begun
  | ask q next ih =>
    simp only [runFrom, Option.elim, strike_issued issued,
      strike_issued (show Token.live.substitute = none from rfl), Except.bind]
    rcases h (begun + 1) q with hreply | ⟨-, hreply⟩
    · rw [hreply]
      cases answer q with
      | ok a => exact ih a (begun + 1)
      | error f => exact Or.inr rfl
    · rw [hreply]
      exact Or.inl rfl

/-! ## Guarded questions -/

variable {guarded : Question → Bool} {looked : Bool}

/-- Whether every question of a kind comes right after a checkpoint.
`looked` says that the dialogue itself does. -/
def Guarded (guarded : Question → Bool) : Bool → Dialogue Question Answer α → Prop
  | _, done _ => True
  | _, fail _ => True
  | _, poll next => next.Guarded guarded true
  | looked, ask q next =>
    (guarded q = true → looked = true) ∧ ∀ a, (next a).Guarded guarded false

theorem Guarded.of_false {d : Dialogue Question Answer α} (h : d.Guarded guarded false) :
    d.Guarded guarded looked := by
  cases d with
  | done a => trivial
  | fail f => trivial
  | poll next => exact h
  | ask q next => exact ⟨fun hq => absurd (h.1 hq) (by simp), h.2⟩

theorem Guarded.bind {d : Dialogue Question Answer α} {k : α → Dialogue Question Answer β}
    (h : d.Guarded guarded looked) (hk : ∀ a, (k a).Guarded guarded false) :
    (d.bind k).Guarded guarded looked := by
  induction d generalizing looked with
  | done a => exact (hk a).of_false
  | fail f => trivial
  | poll next ih => exact ih h
  | ask q next ih => exact ⟨h.1, fun a => ih a (h.2 a)⟩

theorem guarded_ofExcept (x : Except Fault α) :
    (ofExcept x : Dialogue Question Answer α).Guarded guarded looked := by
  cases x <;> trivial

/-- **A loop is guarded if every turn is.** -/
theorem Guarded.iterate {turn : σ → Dialogue Question Answer (Turn σ α)}
    (h : ∀ s, (turn s).Guarded guarded false) (budget : Nat) (s : σ) :
    (iterate turn budget s).Guarded guarded false := by
  induction budget generalizing s with
  | zero => trivial
  | succ budget ih =>
    refine (h s).bind fun t => ?_
    cases t with
    | again next => exact ih next
    | finished a => trivial

/-- **A guarded question is not put under a cancelled token.** The calls
before it are as many as its place in the list. -/
theorem Guarded.asked_runFrom (issued : token.substitute = none)
    {d : Dialogue Question Answer α} (h : d.Guarded guarded looked) (begun : Nat)
    (hlooked : looked = true → token.isCancelledAt begun = false) {i : Nat} {q : Question}
    (hq : (d.runFrom reply (some token) begun).asked[i]? = some q) (hg : guarded q = true) :
    token.isCancelledAt (begun + i) = false := by
  induction d generalizing looked begun i with
  | done a => simp [runFrom] at hq
  | fail f => simp [runFrom] at hq
  | poll next ih =>
    rw [runFrom, checkToken_issued issued] at hq
    by_cases hc : isCancelledAt (some token) begun
    · rw [if_pos hc] at hq
      simp at hq
    · rw [if_neg hc] at hq
      exact ih h begun (fun _ => Bool.eq_false_iff.2 hc) hq
  | ask p next ih =>
    simp only [runFrom, Option.elim, strike_issued issued, Except.bind] at hq
    cases i with
    | zero =>
      have hp : p = q := by
        cases hr : reply (begun + 1) p <;> simpa [hr] using hq
      exact hlooked (h.1 (hp ▸ hg))
    | succ i =>
      cases hr : reply (begun + 1) p with
      | ok a =>
        rw [hr] at hq
        have hrest := ih a (h.2 a) (begun + 1) (by simp) hq
        rwa [Nat.add_right_comm, Nat.add_assoc] at hrest
      | error f =>
        rw [hr] at hq
        simp at hq

end Dialogue

end KnowledgeGraph
