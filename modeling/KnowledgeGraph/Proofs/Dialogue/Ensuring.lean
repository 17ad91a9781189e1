import KnowledgeGraph.Proofs.Dialogue.Interruption
/-!
# What a dialogue ensures

Some of what a dialogue comes to does not depend on its answers at all.
`Ensures` says so of what it ends with and of the faults that it ends in by
itself. It is told from the dialogue alone, and so it holds in every run,
whatever is replied and however often the reply to a question changes
(`Ensures.of_ok`). A fault that is not the dialogue's own is its token's, or
was replied (`Ensures.of_error`).

A loop has a state before each of its turns (`heads`). An invariant that
every turn ensures holds in all of them (`forall_mem_heads`), and the loop
ends as its turn from the last of these states does
(`exists_outcome_iterate`).
-/

namespace KnowledgeGraph

namespace Dialogue

variable {Question : Type} {Answer : Question → Type} {α β σ : Type} {post post' : α → Prop}
  {fault fault' : Fault → Prop}

/-! ## Whatever is answered -/

/-- Whether a dialogue ends with what should hold of its result, or by
itself in some kind of fault, whatever it is answered. -/
def Ensures (post : α → Prop) (fault : Fault → Prop) : Dialogue Question Answer α → Prop
  | done a => post a
  | fail f => fault f
  | poll next => next.Ensures post fault
  | ask _ next => ∀ a, (next a).Ensures post fault

theorem Ensures.mono {d : Dialogue Question Answer α} (h : d.Ensures post fault)
    (hpost : ∀ a, post a → post' a) (hfault : ∀ f, fault f → fault' f) :
    d.Ensures post' fault' := by
  induction d with
  | done a => exact hpost a h
  | fail f => exact hfault f h
  | poll next ih => exact ih h
  | ask q next ih => exact fun a => ih a (h a)

theorem Ensures.bind {goal : β → Prop} {d : Dialogue Question Answer α}
    {k : α → Dialogue Question Answer β} (h : d.Ensures post fault)
    (hk : ∀ a, post a → (k a).Ensures goal fault) : (d.bind k).Ensures goal fault := by
  induction d with
  | done a => exact hk a h
  | fail f => exact h
  | poll next ih => exact ih h
  | ask q next ih => exact fun a => ih a (h a)

/-- What is ensured of a turn: an invariant if it goes on, and otherwise what
should hold in the end. -/
def Turn.Keeps (inv : σ → Prop) (post : α → Prop) : Turn σ α → Prop
  | .again s => inv s
  | .finished a => post a

/-- **A loop ensures what its turns do**, unless it runs out of them. -/
theorem Ensures.iterate {turn : σ → Dialogue Question Answer (Turn σ α)} {inv : σ → Prop}
    {post : σ → α → Prop}
    (hturn : ∀ s, inv s → (turn s).Ensures (Turn.Keeps inv (post s)) fault) (budget : Nat) {s : σ}
    (hs : inv s) :
    (iterate turn budget s).Ensures (fun a => ∃ last, inv last ∧ post last a)
      fun f => f = .exhausted ∨ fault f := by
  induction budget generalizing s with
  | zero => exact Or.inl rfl
  | succ budget ih =>
    refine ((hturn s hs).mono (fun _ h => h) fun _ => Or.inr).bind fun t ht => ?_
    cases t with
    | again next => exact ih ht
    | finished a => exact ⟨s, hs, ht⟩

/-- **A loop of turns without a fault** ends in none, but in that of having
run out of them. -/
theorem Ensures.iterate_of_keeps {turn : σ → Dialogue Question Answer (Turn σ α)}
    {inv : σ → Prop} {post : σ → α → Prop}
    (hturn : ∀ s, inv s → (turn s).Ensures (Turn.Keeps inv (post s)) fun _ => False)
    (budget : Nat) {s : σ} (hs : inv s) :
    (Dialogue.iterate turn budget s).Ensures (fun _ => True) (· = .exhausted) :=
  (Ensures.iterate hturn budget hs).mono (fun _ _ => trivial)
    fun _ hfault => hfault.resolve_right id

/-! ## In a run -/

variable {d : Dialogue Question Answer α} {reply : Nat → (q : Question) → Except Fault (Answer q)}
  {token : Option Token} {begun : Nat}

/-- **What is ensured holds of what a run ends with.** -/
theorem Ensures.of_ok (h : d.Ensures post fault) {a : α}
    (hrun : (d.runFrom reply token begun).outcome = .ok a) : post a := by
  induction d generalizing begun with
  | done b =>
    obtain rfl := Except.ok.inj hrun
    exact h
  | fail f => cases hrun
  | poll next ih =>
    rw [runFrom] at hrun
    cases hcheck : checkToken token begun with
    | ok _ =>
      rw [hcheck] at hrun
      exact ih h hrun
    | error f =>
      rw [hcheck] at hrun
      cases hrun
  | ask q next ih =>
    rw [runFrom] at hrun
    dsimp only at hrun
    split at hrun
    · exact ih _ (h _) hrun
    · cases hrun

/-- **A fault that a run ends in is of that kind**, if neither its token nor
any reply is to blame. -/
theorem Ensures.of_error (h : d.Ensures post fault) {f : Fault}
    (hrun : (d.runFrom reply token begun).outcome = .error f) :
    fault f ∨ Token.Stops token f ∨ ∃ call q, reply call q = .error f := by
  induction d generalizing begun with
  | done a => cases hrun
  | fail g =>
    obtain rfl := Except.error.inj hrun
    exact Or.inl h
  | poll next ih =>
    rw [runFrom] at hrun
    cases hcheck : checkToken token begun with
    | ok _ =>
      rw [hcheck] at hrun
      exact ih h hrun
    | error g =>
      rw [hcheck] at hrun
      obtain rfl := Except.error.inj hrun
      exact Or.inr (Or.inl ⟨begun, Or.inl hcheck⟩)
  | ask q next ih =>
    rw [runFrom] at hrun
    dsimp only at hrun
    cases hstrike : token.elim (Except.ok ()) (·.strike (begun + 1)) with
    | error g =>
      rw [hstrike] at hrun
      obtain rfl := Except.error.inj hrun
      exact Or.inr (Or.inl ⟨begun + 1, Or.inr hstrike⟩)
    | ok _ =>
      rw [hstrike] at hrun
      dsimp only [Except.bind] at hrun
      cases hreply : reply (begun + 1) q with
      | ok a =>
        rw [hreply] at hrun
        exact ih a (h a) hrun
      | error g =>
        rw [hreply] at hrun
        obtain rfl := Except.error.inj hrun
        exact Or.inr (Or.inr ⟨begun + 1, q, hreply⟩)

/-! ## Loop heads -/

variable {turn : σ → Dialogue Question Answer (Turn σ α)}

/-- The states that a loop is in before its turns, in a run from some number
of calls on: the state it begins with, and what each turn that goes on leads
to. -/
def heads (reply : Nat → (q : Question) → Except Fault (Answer q)) (token : Option Token)
    (turn : σ → Dialogue Question Answer (Turn σ α)) : Nat → Nat → σ → List σ
  | 0, _, _ => []
  | budget + 1, begun, s =>
    s :: match (turn s).runFrom reply token begun with
      | ⟨asked, .ok (.again next)⟩ => heads reply token turn budget (begun + asked.length) next
      | _ => []

/-- **What turns ensure holds before each of them.** -/
theorem forall_mem_heads {inv : σ → Prop} {post : σ → α → Prop}
    (hturn : ∀ s, inv s → (turn s).Ensures (Turn.Keeps inv (post s)) fault) (budget begun : Nat)
    {s : σ} (hs : inv s) : ∀ s' ∈ heads reply token turn budget begun s, inv s' := by
  induction budget generalizing begun s with
  | zero => exact fun _ h => nomatch h
  | succ budget ih =>
    rw [heads, List.forall_mem_cons]
    refine ⟨hs, ?_⟩
    split
    · rename_i asked next hrun
      have hnext : Turn.Keeps inv (post s) (.again next) :=
        (hturn s hs).of_ok (congrArg Run.outcome hrun)
      exact ih _ hnext
    · exact fun _ h => nomatch h

/-- **A loop ends as the turn from its last head does**, or for want of
another turn. -/
theorem exists_outcome_iterate (budget begun : Nat) (s : σ) :
    ∃ last call, (heads reply token turn (budget + 1) begun s).getLast? = some last ∧
      ((iterate turn (budget + 1) s).runFrom reply token begun).outcome =
        ((turn last).runFrom reply token call).outcome.bind fun
          | .again _ => .error .exhausted
          | .finished a => .ok a := by
  induction budget generalizing begun s with
  | zero =>
    refine ⟨s, begun, ?_, ?_⟩
    · rw [heads]
      split <;> rfl
    · rw [iterate, runFrom_bind]
      cases (turn s).runFrom reply token begun with
      | mk asked outcome =>
        cases outcome with
        | error f => rfl
        | ok t => cases t <;> rfl
  | succ budget ih =>
    rw [iterate, runFrom_bind, heads]
    cases hturn : (turn s).runFrom reply token begun with
    | mk asked outcome =>
      rcases outcome with f | next | a
      · exact ⟨s, begun, rfl, by rw [hturn]; rfl⟩
      · obtain ⟨last, call, hlast, houtcome⟩ := ih (begun + asked.length) next
        refine ⟨last, call, ?_, houtcome⟩
        rw [List.getLast?_cons, hlast, Option.getD_some]
      · exact ⟨s, begun, rfl, by rw [hturn]; rfl⟩

/-- A loop that comes to its end does so in the turn from its last head. -/
theorem exists_last_head {budget : Nat} {s : σ} {a : α}
    (hrun : ((iterate turn budget s).runFrom reply token begun).outcome = .ok a) :
    ∃ last call, (heads reply token turn budget begun s).getLast? = some last ∧
      ((turn last).runFrom reply token call).outcome = .ok (.finished a) := by
  cases budget with
  | zero => cases hrun
  | succ budget =>
    obtain ⟨last, call, hlast, houtcome⟩ := exists_outcome_iterate budget begun s
    refine ⟨last, call, hlast, ?_⟩
    rw [houtcome] at hrun
    generalize ((turn last).runFrom reply token call).outcome = outcome at hrun ⊢
    rcases outcome with f | next | b
    · cases hrun
    · cases hrun
    · obtain rfl := Except.ok.inj hrun
      rfl

end Dialogue

end KnowledgeGraph
