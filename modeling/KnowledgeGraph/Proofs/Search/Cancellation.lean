import KnowledgeGraph.Graph.Store
import KnowledgeGraph.Proofs.Dialogue.Cancellation
import KnowledgeGraph.Service
/-!
# Cancelled searches

All three searches look at their token before they ask for the
relationships of another id, and never between an answer and their
result. So a search under a token that is cancelled at some moment ends
as cancelled or as it would have ended anyway, and it asks for no
relationships once the token is cancelled
(`search_cancelled_or_complete`).
-/

namespace KnowledgeGraph

/-- Whether relationships are asked for. -/
def GraphQuestion.asksRelationships : GraphQuestion → Bool
  | .relationships _ _ _ => true
  | _ => false

namespace Search

open Dialogue

/-- A dialogue that asks for relationships right after a checkpoint
only. -/
abbrev Careful {α : Type} (d : GraphDialogue α) : Prop :=
  d.Guarded GraphQuestion.asksRelationships false

/-! ## From what was found to a path -/

theorem careful_entity (id : Value) : Careful (GraphDialogue.entity id) :=
  ⟨fun h => h, fun _ => trivial⟩

theorem careful_stay (id : Value) : Careful (stay id) :=
  (careful_entity id).bind fun _ => trivial

theorem careful_resolved_entity (known : Resolved) (id : String) : Careful (known.entity id) := by
  unfold Resolved.entity
  split
  · trivial
  · exact (careful_entity _).bind fun _ => trivial

theorem careful_entities (ids : List String) (known : Resolved) :
    Careful (Resolved.entities ids known) := by
  induction ids generalizing known with
  | nil => trivial
  | cons id rest ih =>
    refine (careful_resolved_entity known id).bind fun (entity?, known) => ?_
    cases entity? with
    | none => trivial
    | some e => exact (ih known).bind fun _ => trivial

theorem careful_path (known : Resolved) (ids : List String) (followed : List Relationship)
    (totalWeight : Binary64) : Careful (known.path ids followed totalWeight) := by
  refine (careful_entities ids known).bind fun (entities?, known) => ?_
  cases entities? with
  | none => trivial
  | some es => exact (guarded_ofExcept _).bind fun _ => trivial

theorem careful_pathAlong (trace : Trace) (source target : String) (totalWeight : Binary64) :
    Careful (pathAlong trace source target totalWeight) :=
  (guarded_ofExcept _).bind fun _ => (careful_path _ _ _ _).bind fun _ => trivial

/-- Right after a checkpoint relationships may be asked for. -/
theorem guarded_outgoing (id : Value) :
    (GraphDialogue.outgoing id).Guarded GraphQuestion.asksRelationships true :=
  ⟨fun _ => rfl, fun _ => trivial⟩

/-! ## The searches -/

theorem careful_breadth_turn (source : String) (goal : Option String) (s : Breadth.State) :
    Careful (Breadth.turn source goal s) := by
  unfold Breadth.turn
  split
  · trivial
  · show Guarded _ true _
    split
    · apply Guarded.of_false
      exact (careful_pathAlong _ _ _ _).bind fun _ => trivial
    · exact (guarded_outgoing _).bind fun _ => trivial

theorem careful_weighted_turn (source : String) (goal : Option String) (s : Weighted.State) :
    Careful (Weighted.turn source goal s) := by
  unfold Weighted.turn
  split
  · trivial
  · show Guarded _ true _
    split
    · trivial
    · split
      · apply Guarded.of_false
        exact (careful_pathAlong _ _ _ _).bind fun _ => trivial
      · exact (guarded_outgoing _).bind fun _ => trivial

theorem careful_depth_turn (goal : Option String) (maxHops : Nat) (s : Depth.State) :
    Careful (Depth.turn goal maxHops s) := by
  unfold Depth.turn
  split
  · trivial
  · trivial
  · show Guarded _ true _
    split
    · trivial
    · split
      · trivial
      · split
        · apply Guarded.of_false
          refine Guarded.bind ?_ fun _ => trivial
          exact (careful_path _ _ _ _).bind fun _ => trivial
        · split
          · refine Guarded.bind ?_ fun _ => trivial
            exact (guarded_outgoing _).bind fun _ => trivial
          · trivial

theorem careful_between {search : String → Option String → GraphDialogue (Option Path)}
    (h : ∀ id goal, Careful (search id goal)) (source target : Value) :
    Careful (between search source target) := by
  unfold between
  split
  · exact careful_stay source
  · split
    · trivial
    · split
      · exact h _ _
      · show Guarded _ true _
        exact (guarded_outgoing _).bind fun _ => trivial

theorem careful_fewestHopsBetween (extent : Nat) (source target : Value) :
    Careful (fewestHopsBetween extent source target) := by
  refine careful_between (fun id goal => ?_) source target
  unfold fewestHops
  split
  · exact careful_stay _
  · exact Guarded.iterate (careful_breadth_turn id goal) _ _

theorem careful_leastWeightBetween (extent : Nat) (source target : Value) :
    Careful (leastWeightBetween extent source target) := by
  refine careful_between (fun id goal => ?_) source target
  unfold leastWeight
  split
  · exact careful_stay _
  · exact Guarded.iterate (careful_weighted_turn id goal) _ _

theorem careful_allPaths (budget : Nat) (source : String) (goal : Option String) (maxHops : Nat) :
    Careful (allPaths budget source goal maxHops) := by
  show Guarded _ true _
  split
  · apply Guarded.of_false
    exact (careful_stay _).bind fun _ => trivial
  · split
    · trivial
    · exact (guarded_outgoing _).bind fun _ => Guarded.iterate (careful_depth_turn goal maxHops) _ _

theorem careful_pathsFromNowhere (source target : Value) (maxHops : Nat) :
    Careful (pathsFromNowhere source target maxHops) := by
  show Guarded _ true _
  split
  · apply Guarded.of_false
    exact (careful_stay _).bind fun _ => trivial
  · split
    · trivial
    · exact (guarded_outgoing _).bind fun _ => trivial

theorem careful_pathsBetween (extent : Nat) (source target : Value) (limit : HopLimit) :
    Careful (pathsBetween extent source target limit) := by
  unfold pathsBetween
  dsimp only
  split
  · trivial
  · split
    · exact careful_allPaths _ _ _ _
    · exact careful_pathsFromNowhere _ _ _

/-- All paths within a limit as it is given; one below zero is refused
before anything is looked at. -/
def pathsGiven (extent : Nat) (source target limit : Value) : GraphDialogue (List Path) :=
  match HopLimit.ofValue limit with
  | .ok limit => pathsBetween extent source target limit
  | .error fault => .fail fault

theorem careful_pathsGiven (extent : Nat) (source target limit : Value) :
    Careful (pathsGiven extent source target limit) := by
  unfold pathsGiven
  split
  · exact careful_pathsBetween _ _ _ _
  · trivial

/-- What a service does for all paths. -/
theorem allPaths_eq_run (s : Service) (r : Repository) (token : Option Token)
    (source target : Value) (maxHops : Option Value) :
    s.allPaths r token source target maxHops =
      r.run token (pathsGiven r.extent source target (maxHops.getD s.maxHops)) := by
  unfold Service.allPaths pathsGiven
  cases HopLimit.ofValue (maxHops.getD s.maxHops) <;> rfl

/-! ## Under a token -/

/-- A repository's own replies heed the token or do not look at it. -/
theorem heeds_reply (r : Repository) {token : Token} (issued : token.substitute = none) :
    Heeds r.answer token fun call q => r.reply (checkToken (some token) call) q := by
  intro call q
  simp only [Repository.reply, checkToken_issued issued]
  cases r.heedsTokens with
  | false => exact Or.inl rfl
  | true =>
    by_cases hc : isCancelledAt (some token) call
    · exact Or.inr ⟨hc, by rw [if_pos hc]; rfl⟩
    · exact Or.inl (by rw [if_neg hc]; rfl)

/-- A dialogue that is ended by its token or not touched by it, and asks
for no relationships once the token is cancelled. -/
def CancelledOrComplete {α : Type} (r : Repository) (token : Token)
    (reply : Nat → (q : GraphQuestion) → Except Fault q.Answer) (d : GraphDialogue α) : Prop :=
  ((d.run reply (some token)).outcome = .error .cancelled ∨
      (d.run reply (some token)).outcome = (r.run (some .live) d).outcome) ∧
    ∀ i id outgoing incoming,
      (d.run reply (some token)).asked[i]? = some (.relationships id outgoing incoming) →
        token.isCancelledAt i = false

theorem Careful.cancelledOrComplete {α : Type} {d : GraphDialogue α} (h : Careful d)
    {r : Repository} {token : Token} (issued : token.substitute = none)
    {reply : Nat → (q : GraphQuestion) → Except Fault q.Answer}
    (heeds : Heeds r.answer token reply) : CancelledOrComplete r token reply d := by
  refine ⟨?_, fun i id outgoing incoming hi => ?_⟩
  · have hlive : (fun call q => r.reply (checkToken (some .live) call) q) = fun _ => r.answer := by
      funext call q
      unfold Repository.reply
      cases r.heedsTokens <;> rfl
    unfold Repository.run
    rw [hlive]
    exact outcome_runFrom issued heeds d 0
  · have hat := h.asked_runFrom issued 0 (by simp) hi rfl
    rwa [Nat.zero_add] at hat

/-- **Cancelling a search is all or nothing.** Whenever its token is
cancelled, and whether the repository refuses questions then or does not
care, each search ends as cancelled or with its whole outcome, and none
asks for relationships once the token is cancelled. -/
theorem search_cancelled_or_complete (r : Repository) {token : Token}
    (issued : token.substitute = none)
    {reply : Nat → (q : GraphQuestion) → Except Fault q.Answer}
    (heeds : Heeds r.answer token reply) (source target : Value) :
    CancelledOrComplete r token reply (fewestHopsBetween r.extent source target) ∧
      CancelledOrComplete r token reply (leastWeightBetween r.extent source target) ∧
      ∀ maxHops, CancelledOrComplete r token reply (pathsGiven r.extent source target maxHops) :=
  ⟨(careful_fewestHopsBetween _ _ _).cancelledOrComplete issued heeds,
    (careful_leastWeightBetween _ _ _).cancelledOrComplete issued heeds,
    fun _ => (careful_pathsGiven _ _ _ _).cancelledOrComplete issued heeds⟩

/-- Two entities with a relationship between them, and a token cancelled
while the first relationships are asked for. -/
theorem search_cancelled_or_complete_midway :
    let label : TypeLabel := ⟨"Node", by decide⟩
    let link : Relationship :=
      ⟨"r", label, "a", "b", [], Relationship.defaultWeight.1, true, none,
        Relationship.defaultWeight.2⟩
    let r := (Store.mk [⟨"a", label, [], none⟩, ⟨"b", label, [], none⟩] [link] [link]).repository
    let token : Token := ⟨some 1, none⟩
    let reply := fun call q => r.reply (checkToken (some token) call) q
    token.substitute = none ∧ Heeds r.answer token reply ∧
      CancelledOrComplete r token reply (fewestHopsBetween r.extent (.text "a") (.text "b")) ∧
      CancelledOrComplete r token reply (leastWeightBetween r.extent (.text "a") (.text "b")) ∧
      ∀ maxHops, CancelledOrComplete r token reply
        (pathsGiven r.extent (.text "a") (.text "b") maxHops) := by
  intro label link r token reply
  have heeds : Heeds r.answer token reply := heeds_reply r rfl
  exact ⟨rfl, heeds, search_cancelled_or_complete r rfl heeds (.text "a") (.text "b")⟩

end Search

end KnowledgeGraph
