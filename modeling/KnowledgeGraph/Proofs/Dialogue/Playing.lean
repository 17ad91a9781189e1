import KnowledgeGraph.Graph.Repository
/-!
# Dialogues that nobody cancels

A run of one dialogue after another is one run after the other
(`runFrom_bind`). Where no token is looked at, a dialogue is a computation
over the answers alone. `play` runs it so (`play_bind`), and it is what a
repository makes of a dialogue without a token (`run_none`).

There are two rules for loops. One finishes a loop whose turns keep an
invariant and use something up (`play_iterate`), and one carries a loop
over to another whose turns look the same from outside
(`play_iterate_map`).
-/

namespace KnowledgeGraph

namespace Dialogue

variable {Question : Type} {Answer : Question → Type} {α β γ σ τ : Type}

/-! ## Runs one after the other -/

namespace Run

/-- A run and what comes of its outcome. -/
def andThen (x : Run Question α) (k : α → Run Question β) : Run Question β :=
  match x.outcome with
  | .ok a => ⟨x.asked ++ (k a).asked, (k a).outcome⟩
  | .error f => ⟨x.asked, .error f⟩

/-- A run with its outcome seen in another way. -/
def map (f : α → β) (x : Run Question α) : Run Question β := ⟨x.asked, x.outcome.map f⟩

@[simp] theorem andThen_ok (asked : List Question) (a : α) (k : α → Run Question β) :
    andThen ⟨asked, .ok a⟩ k = ⟨asked ++ (k a).asked, (k a).outcome⟩ := rfl

@[simp] theorem map_ok (asked : List Question) (a : α) (f : α → β) :
    map f (⟨asked, .ok a⟩ : Run Question α) = ⟨asked, .ok (f a)⟩ := rfl

/-- What comes of an outcome without questions adds none. -/
theorem asked_andThen (x : Run Question α) {k : α → Run Question β}
    (h : ∀ a, (k a).asked = []) : (x.andThen k).asked = x.asked := by
  obtain ⟨asked, outcome⟩ := x
  cases outcome with
  | error f => rfl
  | ok a => rw [andThen_ok, h a, List.append_nil]

theorem map_andThen (x : Run Question α) (k : α → Run Question β) (f : β → γ) :
    (x.andThen k).map f = x.andThen fun a => (k a).map f := by
  obtain ⟨asked, outcome⟩ := x
  cases outcome <;> rfl

theorem andThen_map (x : Run Question α) (f : α → β) (k : β → Run Question γ) :
    (x.map f).andThen k = x.andThen fun a => k (f a) := by
  obtain ⟨asked, outcome⟩ := x
  cases outcome <;> rfl

end Run

/-- **A run goes on where its first part ended**, with the count of calls. -/
theorem runFrom_bind {reply : Nat → (q : Question) → Except Fault (Answer q)}
    {token : Option Token} (d : Dialogue Question Answer α) (k : α → Dialogue Question Answer β)
    (begun : Nat) :
    (d.bind k).runFrom reply token begun =
      (d.runFrom reply token begun).andThen fun a =>
        (k a).runFrom reply token (begun + (d.runFrom reply token begun).asked.length) := by
  induction d generalizing begun with
  | done a => rfl
  | fail f => rfl
  | poll next ih =>
    rw [bind, runFrom, runFrom]
    cases checkToken token begun with
    | ok _ => exact ih begun
    | error f => rfl
  | ask q next ih =>
    rw [bind, runFrom, runFrom]
    dsimp only
    split
    · rename_i a _
      rw [ih a (begun + 1)]
      cases hrest : (next a).runFrom reply token (begun + 1) with
      | mk asked outcome =>
        cases outcome with
        | error f => rfl
        | ok b => simp [Run.andThen_ok, Nat.add_comm, Nat.add_left_comm]
    · rfl

/-! ## Playing -/

/-- A dialogue played against answers, with nobody cancelling it. -/
def play (answer : (q : Question) → Except Fault (Answer q)) :
    Dialogue Question Answer α → Run Question α
  | done a => ⟨[], .ok a⟩
  | fail f => ⟨[], .error f⟩
  | poll next => play answer next
  | ask q next =>
    match answer q with
    | .ok a => ⟨q :: (play answer (next a)).asked, (play answer (next a)).outcome⟩
    | .error f => ⟨[q], .error f⟩

variable {answer : (q : Question) → Except Fault (Answer q)}

@[simp] theorem play_done (a : α) :
    (done a : Dialogue Question Answer α).play answer = ⟨[], .ok a⟩ := rfl

@[simp] theorem play_poll (d : Dialogue Question Answer α) : (poll d).play answer = d.play answer :=
  rfl

theorem play_ask_of_ok {q : Question} {a : Answer q} (h : answer q = .ok a)
    (next : Answer q → Dialogue Question Answer α) :
    (ask q next).play answer =
      ⟨q :: ((next a).play answer).asked, ((next a).play answer).outcome⟩ := by
  rw [play, h]

theorem play_ask_of_error {q : Question} {f : Fault} (h : answer q = .error f)
    (next : Answer q → Dialogue Question Answer α) :
    (ask q next).play answer = ⟨[q], .error f⟩ := by
  rw [play, h]

/-- Without a token a dialogue is played. -/
theorem runFrom_none (d : Dialogue Question Answer α) (begun : Nat) :
    d.runFrom (fun _ => answer) none begun = d.play answer := by
  induction d generalizing begun with
  | done a => rfl
  | fail f => rfl
  | poll next ih => exact ih begun
  | ask q next ih =>
    rw [runFrom]
    dsimp only [Option.elim, Except.bind]
    cases h : answer q with
    | error f => rw [play_ask_of_error h]
    | ok a => rw [play_ask_of_ok h, ← ih a (begun + 1)]

/-- **A dialogue goes on where its first part ended.** -/
theorem play_bind (d : Dialogue Question Answer α) (k : α → Dialogue Question Answer β) :
    (d.bind k).play answer = (d.play answer).andThen fun a => (k a).play answer := by
  rw [← runFrom_none (d.bind k) 0, runFrom_bind, runFrom_none]
  congr 1
  funext a
  rw [runFrom_none]

/-! ## Loops -/

section Loops

variable {turn : σ → Dialogue Question Answer (Turn σ α)}

/-- A loop goes on with another turn, or is finished. -/
theorem play_iterate_succ (budget : Nat) (s : σ) :
    (iterate turn (budget + 1) s).play answer =
      ((turn s).play answer).andThen fun
        | .again next => (iterate turn budget next).play answer
        | .finished a => ⟨[], .ok a⟩ := by
  rw [iterate, play_bind]
  congr
  funext t
  cases t <;> rfl

/-- **A loop finishes within its budget**, if every turn keeps an
invariant with less left to do. The invariant may speak of what was asked
so far, and so may what holds in the end. -/
theorem play_iterate (inv : Nat → List Question → σ → Prop) (post : List Question → α → Prop)
    (hturn : ∀ left asked s, inv left asked s →
      (∃ more s' left', (turn s).play answer = ⟨more, .ok (.again s')⟩ ∧
        inv left' (asked ++ more) s' ∧ left' < left) ∨
      ∃ more a, (turn s).play answer = ⟨more, .ok (.finished a)⟩ ∧ post (asked ++ more) a)
    {budget left : Nat} (asked : List Question) {s : σ} (hs : inv left asked s)
    (hleft : left < budget) :
    ∃ more a, (iterate turn budget s).play answer = ⟨more, .ok a⟩ ∧ post (asked ++ more) a := by
  induction budget generalizing left asked s with
  | zero => exact absurd hleft (Nat.not_lt_zero _)
  | succ budget ih =>
    rw [play_iterate_succ]
    rcases hturn left asked s hs with ⟨more, s', left', hplay, hs', hless⟩ | ⟨more, a, hplay, hpost⟩
    · obtain ⟨rest, a, hrest, hpost⟩ := ih _ hs' (by omega)
      refine ⟨more ++ rest, a, ?_, by rwa [List.append_assoc] at hpost⟩
      rw [hplay, Run.andThen_ok]
      dsimp only
      rw [hrest]
    · refine ⟨more, a, ?_, hpost⟩
      rw [hplay, Run.andThen_ok, List.append_nil]

variable {turn' : τ → Dialogue Question Answer (Turn τ β)}

/-- A turn with its state and its result seen in another way. -/
def Turn.map (view : τ → σ) (f : β → α) : Turn τ β → Turn σ α
  | .again s => .again (view s)
  | .finished b => .finished (f b)

/-- **Loops are alike if their turns are**, where the states of one are
seen as states of the other. -/
theorem play_iterate_map (inv : τ → Prop) {view : τ → σ} {f : β → α}
    (hturn : ∀ t, inv t →
      ((turn' t).play answer).map (Turn.map view f) = (turn (view t)).play answer ∧
        ∀ t', ((turn' t).play answer).outcome = .ok (.again t') → inv t')
    (budget : Nat) {t : τ} (ht : inv t) :
    ((iterate turn' budget t).play answer).map f = (iterate turn budget (view t)).play answer := by
  induction budget generalizing t with
  | zero => rfl
  | succ budget ih =>
    obtain ⟨hsame, hkeeps⟩ := hturn t ht
    rw [play_iterate_succ, play_iterate_succ, ← hsame, Run.map_andThen, Run.andThen_map]
    cases hplay : (turn' t).play answer with
    | mk asked outcome =>
      cases outcome with
      | error fault => rfl
      | ok u =>
        rw [Run.andThen_ok, Run.andThen_ok]
        cases u with
        | finished b => rfl
        | again t' =>
          have ht' : inv t' := hkeeps t' (by rw [hplay])
          dsimp only [Turn.map]
          rw [ih ht']

end Loops

end Dialogue

namespace Repository

/-- A repository's own answers are what it replies where there is no
token. -/
theorem run_none {α : Type} (r : Repository) (d : GraphDialogue α) :
    r.run none d = d.play r.answer := by
  have hreply : (fun call q => r.reply (checkToken none call) q) = fun _ => r.answer := by
    funext call q
    unfold reply
    cases r.heedsTokens <;> rfl
  unfold run
  rw [hreply]
  exact Dialogue.runFrom_none d 0

end Repository

end KnowledgeGraph
