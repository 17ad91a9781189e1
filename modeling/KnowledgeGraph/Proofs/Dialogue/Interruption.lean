import KnowledgeGraph.Proofs.Dialogue.Playing
/-!
# Dialogues that break off

A dialogue may end before its time: its token stops it, or a question is
refused. Up to there it asks what it would have asked of a repository that
answers to everything, as long as both answer alike where both answer. So
a run is the whole of such a dialogue, or a beginning of it
(`run_eq_play_or_breaksOff`).
-/

namespace KnowledgeGraph

/-- Whether an operation's token may stop it with a fault. -/
def Token.Stops (token : Option Token) (f : Fault) : Prop :=
  ∃ call, checkToken token call = .error f ∨ token.elim (.ok ()) (·.strike call) = .error f

namespace Dialogue

variable {Question : Type} {Answer : Question → Type} {α : Type}

/-- Whether a run ends on the way of what is asked otherwise: it asks the
first of these questions, until its token stops it or the last of them is
refused. -/
structure BreaksOff (answer : (q : Question) → Except Fault (Answer q)) (token : Option Token)
    (asked : List Question) (run : Run Question α) : Prop where
  asked : run.asked <+: asked
  fault : ∃ f, run.outcome = .error f ∧
    (Token.Stops token f ∨ ∃ q, run.asked.getLast? = some q ∧ answer q = .error f)

variable {answer full : (q : Question) → Except Fault (Answer q)} {token : Option Token}
  {reply : Nat → (q : Question) → Except Fault (Answer q)} {asked : List Question}

/-- What broke off breaks off after one question more. -/
theorem BreaksOff.cons {run : Run Question α} (h : BreaksOff answer token asked run)
    (q : Question) :
    BreaksOff answer token (q :: asked) (⟨q :: run.asked, run.outcome⟩ : Run Question α) := by
  obtain ⟨f, houtcome, hcause⟩ := h.fault
  refine ⟨List.cons_prefix_cons.2 ⟨rfl, h.asked⟩, f, houtcome, hcause.imp_right ?_⟩
  rintro ⟨last, hlast, hrefused⟩
  exact ⟨last, by rw [List.getLast?_cons, hlast, Option.getD_some], hrefused⟩

/-- The first question of a dialogue is asked, whatever it is answered. -/
theorem singleton_prefix_play_ask (q : Question)
    (next : Answer q → Dialogue Question Answer α) :
    [q] <+: ((ask q next).play answer).asked := by
  cases hanswer : answer q with
  | ok a =>
    rw [play_ask_of_ok hanswer]
    exact List.prefix_append [q] _
  | error f =>
    have hasked : ((ask q next).play answer).asked = [q] :=
      congrArg Run.asked (play_ask_of_error hanswer next)
    exact hasked ▸ List.prefix_rfl

/-- **A run is complete or breaks off**, from any point on. It is compared
with answers that leave nothing out. -/
theorem runFrom_eq_play_or_breaksOff
    (hreply : ∀ call q, reply call q = answer q ∨
      ∃ f, checkToken token call = .error f ∧ reply call q = .error f)
    (hfull : ∀ q a, answer q = .ok a → full q = .ok a)
    (d : Dialogue Question Answer α) (begun : Nat) :
    d.runFrom reply token begun = d.play full ∨
      BreaksOff answer token (d.play full).asked (d.runFrom reply token begun) := by
  induction d generalizing begun with
  | done a => exact Or.inl rfl
  | fail f => exact Or.inl rfl
  | poll next ih =>
    rw [runFrom, play_poll]
    cases hcheck : checkToken token begun with
    | ok _ => exact ih begun
    | error f => exact Or.inr ⟨List.nil_prefix, f, rfl, Or.inl ⟨begun, Or.inl hcheck⟩⟩
  | ask q next ih =>
    have hfirst : [q] <+: ((ask q next).play full).asked := singleton_prefix_play_ask q next
    rw [runFrom]
    cases hstrike : token.elim (Except.ok ()) (·.strike (begun + 1)) with
    | error f => exact Or.inr ⟨hfirst, f, rfl, Or.inl ⟨begun + 1, Or.inr hstrike⟩⟩
    | ok _ =>
      dsimp only [Except.bind]
      rcases hreply (begun + 1) q with hsame | ⟨f, hcheck, hrefused⟩
      · rw [hsame]
        cases hanswer : answer q with
        | error f => exact Or.inr ⟨hfirst, f, rfl, Or.inr ⟨q, rfl, hanswer⟩⟩
        | ok a =>
          rw [play_ask_of_ok (hfull q a hanswer)]
          dsimp only
          rcases ih a (begun + 1) with hplay | hbreaks
          · exact Or.inl (by rw [hplay])
          · exact Or.inr (hbreaks.cons q)
      · rw [hrefused]
        exact Or.inr ⟨hfirst, f, rfl, Or.inl ⟨begun + 1, Or.inl hcheck⟩⟩

end Dialogue

open Dialogue in
/-- **A dialogue with a repository is complete or breaks off.** -/
theorem Repository.run_eq_play_or_breaksOff {α : Type} (r : Repository) (token : Option Token)
    {full : (q : GraphQuestion) → Except Fault q.Answer}
    (hfull : ∀ q a, r.answer q = .ok a → full q = .ok a) (d : GraphDialogue α) :
    r.run token d = d.play full ∨ BreaksOff r.answer token (d.play full).asked (r.run token d) := by
  refine runFrom_eq_play_or_breaksOff (fun call q => ?_) hfull d 0
  unfold Repository.reply
  split
  · cases hcheck : checkToken token call with
    | ok _ => exact Or.inl rfl
    | error f => exact Or.inr ⟨f, rfl, rfl⟩
  · exact Or.inl rfl

end KnowledgeGraph
