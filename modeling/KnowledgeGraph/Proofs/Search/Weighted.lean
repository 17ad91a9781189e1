import KnowledgeGraph.Proofs.Dialogue.Asking
import KnowledgeGraph.Proofs.Search.Retracing
/-!
# Settling ids

A search by weight settles one id after the other. Which comes next is a
matter of weights; but whatever these are, the trace leads to each settled
id along a walk through ids settled before (`Settling.ways`), and what a
settled id leads to is settled or waits (`Rested.followed`). So a goal
that can be reached is settled at last, and a way there is chosen
(`play_choose`). What more is known of the weights, or of what was asked,
is carried along from turn to turn (`Chooses`, `play_choose_of_invariant`).

An id may wait more than once. What is left to do is therefore counted in
relationships: those of the ids not yet settled, and one for each that
waits (`work`). Every turn leaves less of it.

Entities are asked for when the way is chosen. So they have no part in the
choice, and the search finds the path along that way as far as entities
are there (`exists_way_leastWeight`).
-/

namespace KnowledgeGraph

namespace Search

namespace Weighted

open Repository Dialogue

/-! ## What was found so far -/

/-- Whether an id was found: it is settled, or it waits. -/
def Found (s : State) (id : String) : Prop := id ∈ s.settled ∨ id ∈ s.frontier.map Waiting.id

/-- Whether a relationship of a settled id leads to an id, and is what the
trace remembers of it. -/
def Entered (r : Repository) (s : State) (id : String) : Prop :=
  ∃ origin ∈ s.settled, ∃ rel ∈ r.links origin,
    rel.neighborOf origin = some id ∧ s.trace.lookup id = some (origin, rel)

/-- What holds of the settled and of those that wait, at any time. -/
structure Settling (r : Repository) (source : String) (s : State) : Prop where
  ways : ∀ id ∈ s.settled, ∃ places steps, r.Walk source places steps id ∧
    s.trace.Leads source id steps ∧ (source :: steps.map Prod.snd).Nodup ∧
    ∀ x ∈ steps.map Prod.snd, x ∈ s.settled
  waiting : ∀ w ∈ s.frontier, w.id ∉ s.settled → w.id = source ∨ Entered r s w.id
  known : ∀ id ∈ s.distances.map Prod.fst, Found s id

/-- What comes of following some relationships of an id: all that they lead
to is found, and nothing that was found is lost. -/
structure Followed (r : Repository) (source id : String) (rels : List Relationship)
    (s s' : State) : Prop where
  settling : Settling r source s'
  settled : s'.settled = s.settled
  kept : ∀ x, Found s x → Found s' x
  found : ∀ rel ∈ rels, ∀ next, rel.neighborOf id = some next → Found s' next
  length_le : s'.frontier.length ≤ s.frontier.length + rels.length

variable {r : Repository} {source id next : String} {s : State} {rel : Relationship}
  {distance : Binary64}

/-! ## Following relationships -/

/-- To follow a relationship changes nothing where it leads nowhere, to what
is settled, or to what is known to be as near. Otherwise it is the best way
there so far, and what brings an id in. -/
theorem relax_cases (id : String) (distance : Binary64) (s : State) (rel : Relationship) :
    (relax id distance s rel = s ∧ ∀ next, rel.neighborOf id = some next →
        next ∈ s.settled ∨
          ∃ known, s.distances.lookup next = some known ∧ ¬ distance + rel.weight < known) ∨
      ∃ next, rel.neighborOf id = some next ∧ next ∉ s.settled ∧
        (∀ known, s.distances.lookup next = some known → distance + rel.weight < known) ∧
        relax id distance s rel =
          { s with
            distances := (next, distance + rel.weight) :: s.distances
            trace := (next, (id, rel)) :: s.trace
            frontier := s.frontier ++ [⟨distance + rel.weight, s.turns, next⟩]
            turns := s.turns + 1 } := by
  unfold relax
  cases hto : rel.neighborOf id with
  | none => exact Or.inl ⟨rfl, fun _ h => nomatch h⟩
  | some next =>
    dsimp only
    by_cases hsettled : s.settled.contains next = true
    · rw [if_pos hsettled]
      refine Or.inl ⟨rfl, fun other hother => Or.inl ?_⟩
      obtain rfl := Option.some.inj hother
      exact List.contains_iff_mem.1 hsettled
    rw [if_neg hsettled]
    have hnew : next ∉ s.settled := mt List.contains_iff_mem.2 hsettled
    unfold improves
    cases hlookup : s.distances.lookup next with
    | none =>
      refine Or.inr ⟨next, rfl, hnew, fun known hknown => ?_, rfl⟩
      rw [hlookup] at hknown
      cases hknown
    | some known =>
      by_cases hless : distance + rel.weight < known
      · refine Or.inr ⟨next, rfl, hnew, fun other hother => ?_, if_pos (decide_eq_true hless)⟩
        obtain rfl := Option.some.inj (hlookup.symm.trans hother)
        exact hless
      · refine Or.inl ⟨if_neg (by simpa using hless), fun other hother => Or.inr ?_⟩
        obtain rfl := Option.some.inj hother
        exact ⟨known, hlookup, hless⟩

namespace Settling

theorem reaches (h : Settling r source s) (hid : id ∈ s.settled) : r.Reaches source id := by
  obtain ⟨places, steps, hwalk, -⟩ := h.ways id hid
  exact hwalk.reaches .start

/-- A better way to an id is remembered in place of any before. -/
theorem enter (h : Settling r source s) (hid : id ∈ s.settled) (hrel : rel ∈ r.links id)
    (hto : rel.neighborOf id = some next) (hnew : next ∉ s.settled) (distance : Binary64) :
    Settling r source
      { s with
        distances := (next, distance) :: s.distances
        trace := (next, (id, rel)) :: s.trace
        frontier := s.frontier ++ [⟨distance, s.turns, next⟩]
        turns := s.turns + 1 } := by
  constructor
  case ways =>
    intro x hx
    obtain ⟨places, steps, hwalk, hleads, hnodup, hsettled⟩ := h.ways x hx
    have hnext : next ∉ steps.map Prod.snd := fun hmem => hnew (hsettled next hmem)
    exact ⟨places, steps, hwalk, hleads.cons_of_notMem hnext _, hnodup, hsettled⟩
  case waiting =>
    intro w hw hunsettled
    by_cases hsame : w.id = next
    · refine Or.inr ⟨id, hid, rel, hrel, by rw [hsame, hto], ?_⟩
      rw [hsame, List.lookup_cons_self]
    · have hold : w ∈ s.frontier := by
        rcases List.mem_append.1 hw with hw | hw
        · exact hw
        · obtain rfl := List.mem_singleton.1 hw
          exact absurd rfl hsame
      refine (h.waiting w hold hunsettled).imp_right ?_
      rintro ⟨origin, horigin, other, hother, hleads, hlookup⟩
      exact ⟨origin, horigin, other, hother, hleads, by rwa [lookup_cons_of_ne hsame]⟩
  case known =>
    intro x hx
    unfold Found
    rw [List.map_append, List.mem_append]
    rcases List.mem_cons.1 hx with rfl | hx
    · exact Or.inr (Or.inr (List.mem_singleton_self _))
    · exact (h.known x hx).imp_right Or.inl

/-- **To follow a relationship finds what it leads to.** -/
theorem relax (h : Settling r source s) (hid : id ∈ s.settled) (hrel : rel ∈ r.links id)
    (distance : Binary64) :
    Followed r source id [rel] s (Weighted.relax id distance s rel) := by
  rcases relax_cases id distance s rel with ⟨hsame, hfound⟩ | ⟨next, hto, hnew, -, hsame⟩
  · rw [hsame]
    refine ⟨h, rfl, fun _ hx => hx, fun other hother next hto => ?_, Nat.le_succ _⟩
    obtain rfl := List.mem_singleton.1 hother
    rcases hfound next hto with hsettled | ⟨known, hlookup, -⟩
    · exact Or.inl hsettled
    · exact h.known next (List.mem_map_of_mem (mem_of_lookup hlookup))
  · rw [hsame]
    refine ⟨h.enter hid hrel hto hnew _, rfl, fun x hx => ?_, fun other hother x hx => ?_, ?_⟩
    · exact hx.imp_right fun hwaits => by
        rw [List.map_append]
        exact List.mem_append_left _ hwaits
    · obtain rfl := List.mem_singleton.1 hother
      obtain rfl := Option.some.inj (hto.symm.trans hx)
      refine Or.inr ?_
      rw [List.map_append]
      exact List.mem_append_right _ (List.mem_singleton_self _)
    · rw [List.length_append]
      exact le_rfl

/-- And so for all relationships of an id. -/
theorem relax_all (h : Settling r source s) (hid : id ∈ s.settled) (distance : Binary64)
    {rels : List Relationship} (hrels : ∀ rel ∈ rels, rel ∈ r.links id) :
    Followed r source id rels s (rels.foldl (Weighted.relax id distance) s) := by
  induction rels generalizing s with
  | nil => exact ⟨h, rfl, fun _ hx => hx, fun _ hrel => (nomatch hrel), le_rfl⟩
  | cons rel rels ih =>
    obtain ⟨hsettling, hsettled, hkept, hfound, hlength⟩ :=
      h.relax hid (hrels rel List.mem_cons_self) distance
    obtain ⟨hsettling', hsettled', hkept', hfound', hlength'⟩ :=
      ih hsettling (hsettled ▸ hid) fun other hother => hrels other (List.mem_cons_of_mem _ hother)
    refine ⟨hsettling', hsettled'.trans hsettled, fun x hx => hkept' x (hkept x hx), ?_, ?_⟩
    · intro other hother next hto
      rcases List.mem_cons.1 hother with rfl | hother
      · exact hkept' next (hfound other (List.mem_singleton_self _) next hto)
      · exact hfound' other hother next hto
    · simp only [List.foldl_cons, List.length_cons, List.length_nil] at hlength hlength' ⊢
      omega

end Settling

/-! ## Settling -/

variable {taken : Waiting}

theorem nearest_mem (first : Waiting) (others : List Waiting) :
    nearest first others ∈ first :: others := by
  induction others generalizing first with
  | nil => exact List.mem_singleton_self _
  | cons w others ih =>
    rw [nearest]
    rcases List.mem_cons.1 (ih (if w.before first then w else first)) with heq | hmem
    · rw [heq]
      split
      · exact List.mem_cons_of_mem _ List.mem_cons_self
      · exact List.mem_cons_self
    · exact List.mem_cons_of_mem _ (List.mem_cons_of_mem _ hmem)

/-- Whether one is the nearest of those that wait. -/
def Nearest (taken : Waiting) (frontier : List Waiting) : Prop :=
  ∃ first others, frontier = first :: others ∧ nearest first others = taken

theorem Nearest.mem {frontier : List Waiting} (h : Nearest taken frontier) :
    taken ∈ frontier := by
  obtain ⟨first, others, rfl, rfl⟩ := h
  exact nearest_mem first others

theorem length_erase_lt {frontier : List Waiting} (h : taken ∈ frontier) :
    (frontier.erase taken).length < frontier.length := by
  have hpos := List.length_pos_of_mem h
  rw [List.length_erase_of_mem h]
  omega

/-- What was found stays so when one no longer waits, but for that one. -/
theorem Found.erase (h : Found s id) (taken : Waiting) :
    id = taken.id ∨ Found { s with frontier := s.frontier.erase taken } id := by
  rcases h with hsettled | hwaits
  · exact Or.inr (Or.inl hsettled)
  · obtain ⟨w, hw, rfl⟩ := List.mem_map.1 hwaits
    by_cases hsame : w = taken
    · exact Or.inl (hsame ▸ rfl)
    · exact Or.inr (Or.inr (List.mem_map_of_mem ((List.mem_erase_of_ne hsame).2 hw)))

namespace Settling

/-- What is settled already need not wait. -/
theorem drop (h : Settling r source s) (hold : taken.id ∈ s.settled) :
    Settling r source { s with frontier := s.frontier.erase taken } := by
  refine ⟨h.ways, fun w hw => h.waiting w (List.mem_of_mem_erase hw), fun x hx => ?_⟩
  rcases (h.known x hx).erase taken with rfl | hfound
  · exact Or.inl hold
  · exact hfound

/-- **What waits is settled by a walk through ids settled before.** -/
theorem settle (h : Settling r source s) (htaken : taken ∈ s.frontier)
    (hnew : taken.id ∉ s.settled) :
    Settling r source
      { s with frontier := s.frontier.erase taken, settled := taken.id :: s.settled } := by
  constructor
  case ways =>
    intro x hx
    rcases List.mem_cons.1 hx with rfl | hx
    · by_cases hsource : taken.id = source
      · rw [hsource]
        exact ⟨[], [], .here, .here, List.nodup_singleton _, fun _ hx => nomatch hx⟩
      · obtain ⟨origin, horigin, rel, hrel, hto, hlookup⟩ :=
          (h.waiting taken htaken hnew).resolve_left hsource
        obtain ⟨places, steps, hwalk, hleads, hnodup, hsettled⟩ := h.ways origin horigin
        obtain ⟨i, hi⟩ := List.mem_iff_getElem?.1 hrel
        refine ⟨places ++ [i], steps ++ [(rel, taken.id)], hwalk.concat hi hto,
          .onward hsource hlookup hleads, Trace.nodup_onward hnodup rel ?_, fun x hx => ?_⟩
        · rw [List.mem_cons, not_or]
          exact ⟨hsource, fun hmem => hnew (hsettled _ hmem)⟩
        · rw [List.map_append, List.mem_append] at hx
          rcases hx with hx | hx
          · exact List.mem_cons_of_mem _ (hsettled x hx)
          · exact List.mem_singleton.1 hx ▸ List.mem_cons_self
    · obtain ⟨places, steps, hwalk, hleads, hnodup, hsettled⟩ := h.ways x hx
      exact ⟨places, steps, hwalk, hleads, hnodup,
        fun y hy => List.mem_cons_of_mem _ (hsettled y hy)⟩
  case waiting =>
    intro w hw hunsettled
    rw [List.mem_cons, not_or] at hunsettled
    refine (h.waiting w (List.mem_of_mem_erase hw) hunsettled.2).imp_right ?_
    rintro ⟨origin, horigin, hentered⟩
    exact ⟨origin, List.mem_cons_of_mem _ horigin, hentered⟩
  case known =>
    intro x hx
    rcases (h.known x hx).erase taken with rfl | hfound
    · exact Or.inl List.mem_cons_self
    · exact hfound.imp_left (List.mem_cons_of_mem _)

/-- **The trace leads to what waits**, along a walk that comes to no id
twice. -/
theorem exists_way (h : Settling r source s) (htaken : taken ∈ s.frontier)
    (hnew : taken.id ∉ s.settled) :
    ∃ places steps, r.Walk source places steps taken.id ∧ s.trace.Leads source taken.id steps ∧
      (source :: steps.map Prod.snd).Nodup ∧ steps.length ≤ s.trace.length := by
  obtain ⟨places, steps, hwalk, hleads, hnodup, -⟩ :=
    (h.settle htaken hnew).ways taken.id List.mem_cons_self
  exact ⟨places, steps, hwalk, hleads, hnodup, hleads.length_le hnodup⟩

end Settling

/-! ## Choosing a way -/

/-- A turn that ends, where the search would ask for entities, with what it
knows of the way: the trace, and the goal as it waited. -/
def choose (goal : Option String) (s : State) :
    GraphDialogue (Turn State (Option (Trace × Waiting))) :=
  match s.frontier with
  | [] => .done (.finished none)
  | first :: others =>
    let taken := nearest first others
    let left := { s with frontier := (first :: others).erase taken }
    .poll <|
      if left.settled.contains taken.id then .done (.again left)
      else
        let left := { left with settled := taken.id :: left.settled }
        if goal = some taken.id then .done (.finished (some (left.trace, taken)))
        else
          (GraphDialogue.outgoing (.text taken.id)).bind fun rels =>
            .done (.again (rels.foldl (relax taken.id taken.distance) left))

/-- The path along a way that was chosen. -/
def pathTo (source : String) : Option (Trace × Waiting) → GraphDialogue (Option Path)
  | none => .done none
  | some (trace, taken) => pathAlong trace source taken.id taken.distance

/-- **A turn chooses, and then asks for entities.** -/
theorem turn_eq (source : String) (goal : Option String) (s : State) :
    turn source goal s = (choose goal s).bind (Turn.conclude (pathTo source)) := by
  unfold turn choose
  cases s.frontier with
  | nil => rfl
  | cons first others =>
    dsimp only
    rw [Dialogue.bind]
    congr
    split
    · rfl
    · split
      · rfl
      · rfl

/-- Whether a question asks for relationships that lead on. -/
def AsksOnward (q : GraphQuestion) : Prop :=
  ∃ id, q = .relationships (.text id) (.bool true) (.bool false)

/-- To choose a way no entity is asked for. -/
theorem asks_choose (goal : Option String) (s : State) : (choose goal s).Asks AsksOnward := by
  unfold choose
  cases s.frontier with
  | nil => trivial
  | cons first others =>
    dsimp only
    split
    · trivial
    · split
      · trivial
      · exact ⟨⟨_, rfl⟩, fun _ => trivial⟩

/-- What a turn comes to: nothing waits; or the nearest that waits was settled
before, or is the goal, or is settled and followed. -/
inductive Chooses (r : Repository) (goal : String) (s : State) :
    Run GraphQuestion (Turn State (Option (Trace × Waiting))) → Prop where
  | empty : s.frontier = [] → Chooses r goal s ⟨[], .ok (.finished none)⟩
  | passed {taken : Waiting} : Nearest taken s.frontier → taken.id ∈ s.settled →
      Chooses r goal s ⟨[], .ok (.again { s with frontier := s.frontier.erase taken })⟩
  | arrived {taken : Waiting} : Nearest taken s.frontier → taken.id ∉ s.settled →
      taken.id = goal → Chooses r goal s ⟨[], .ok (.finished (some (s.trace, taken)))⟩
  | followed {taken : Waiting} : Nearest taken s.frontier → taken.id ∉ s.settled →
      taken.id ≠ goal →
      Chooses r goal s ⟨[.relationships (.text taken.id) (.bool true) (.bool false)],
        .ok (.again ((r.links taken.id).foldl (relax taken.id taken.distance)
          { s with frontier := s.frontier.erase taken, settled := taken.id :: s.settled }))⟩

theorem Chooses.again_or_finished {goal : String}
    {run : Run GraphQuestion (Turn State (Option (Trace × Waiting)))} (h : Chooses r goal s run) :
    (∃ asked s', run = ⟨asked, .ok (.again s')⟩) ∨
      ∃ asked choice, run = ⟨asked, .ok (.finished choice)⟩ := by
  cases h with
  | empty | arrived => exact Or.inr ⟨_, _, rfl⟩
  | passed | followed => exact Or.inl ⟨_, _, rfl⟩

/-- **What a turn of the choice does**, where relationships are answered
with. -/
theorem Settling.chooses (h : Settling r source s) (hr : r.Surveyable source) (goal : String) :
    Chooses r goal s ((choose (some goal) s).play r.answer) := by
  cases hfrontier : s.frontier with
  | nil =>
    rw [choose, hfrontier]
    exact .empty hfrontier
  | cons first others =>
    obtain ⟨taken, htaken⟩ : ∃ taken, nearest first others = taken := ⟨_, rfl⟩
    have hnearest : Nearest taken s.frontier := ⟨first, others, hfrontier, htaken⟩
    unfold choose
    rw [hfrontier]
    dsimp only
    rw [htaken, ← hfrontier, play_poll]
    by_cases hold : taken.id ∈ s.settled
    · rw [if_pos (List.contains_iff_mem.2 hold)]
      exact .passed hnearest hold
    rw [if_neg (mt List.contains_iff_mem.1 hold)]
    by_cases hgoal : taken.id = goal
    · rw [if_pos (congrArg some hgoal.symm)]
      exact .arrived hnearest hold hgoal
    · have hreaches := (h.settle hnearest.mem hold).reaches List.mem_cons_self
      rw [if_neg (fun heq => hgoal (Option.some.inj heq).symm), GraphDialogue.outgoing,
        Dialogue.bind, play_ask_of_ok (hr.answer_links hreaches)]
      exact .followed hnearest hold hgoal

/-- What may be chosen: a way to the goal that the trace leads, or none if
the goal cannot be reached. -/
inductive Chosen (r : Repository) (source goal : String) : Option (Trace × Waiting) → Prop where
  | along {trace : Trace} {taken : Waiting} {places : List ℕ} {steps : Way} :
      r.Walk source places steps taken.id → trace.Leads source taken.id steps →
      steps.length ≤ trace.length → taken.id = goal → Chosen r source goal (some (trace, taken))
  | nowhere : ¬ r.Reaches source goal → Chosen r source goal none

/-! ## Turns -/

/-- What holds between two turns: all that is settled was followed, and the
goal is not settled. -/
structure Rested (r : Repository) (source goal : String) (s : State) : Prop where
  settling : Settling r source s
  begun : Found s source
  followed : ∀ id ∈ s.settled, ∀ rel ∈ r.links id, ∀ next, rel.neighborOf id = some next →
    Found s next
  missed : goal ∉ s.settled

/-- What is left to do: for each that waits, and for each relationship of an
id that is not settled. -/
noncomputable def work (hr : r.Surveyable source) (s : State) : ℕ :=
  s.frontier.length + ∑ id ∈ hr.finite.toFinset with id ∉ s.settled, (r.links id).length

variable {goal : String}

theorem rested_start (r : Repository) {source goal : String} :
    Rested r source goal (start source) := by
  refine ⟨⟨fun _ hx => (nomatch hx), fun w hw _ => ?_, fun x hx => ?_⟩, ?_,
    fun _ hx => (nomatch hx), fun hx => (nomatch hx)⟩
  · obtain rfl := List.mem_singleton.1 hw
    exact Or.inl rfl
  · exact Or.inr hx
  · exact Or.inr (List.mem_singleton_self _)

namespace Rested

/-- **Where nothing waits all is settled** that can be reached. -/
theorem settled_of_reaches (h : Rested r source goal s) (hempty : s.frontier = [])
    (hid : r.Reaches source id) : id ∈ s.settled := by
  have hfound : ∀ {x}, Found s x → x ∈ s.settled := by
    rintro x (hx | hx)
    · exact hx
    · rw [hempty] at hx
      cases hx
  induction hid with
  | start => exact hfound h.begun
  | follow _ hrel hto ih => exact hfound (h.followed _ ih _ hrel _ hto)

/-- One that was settled before is passed over. -/
theorem drop (h : Rested r source goal s) (hold : taken.id ∈ s.settled) :
    Rested r source goal { s with frontier := s.frontier.erase taken } := by
  have hkept : ∀ {x}, Found s x → Found { s with frontier := s.frontier.erase taken } x := by
    intro x hx
    rcases hx.erase taken with rfl | hfound
    · exact Or.inl hold
    · exact hfound
  exact ⟨h.settling.drop hold, hkept h.begun,
    fun id hid rel hrel next hto => hkept (h.followed id hid rel hrel next hto), h.missed⟩

/-- **A new one is settled and followed**, unless it is the goal. -/
theorem settle (h : Rested r source goal s) (htaken : taken ∈ s.frontier)
    (hnew : taken.id ∉ s.settled) (hgoal : taken.id ≠ goal) :
    let left := { s with frontier := s.frontier.erase taken, settled := taken.id :: s.settled }
    let s' := (r.links taken.id).foldl (Weighted.relax taken.id taken.distance) left
    Rested r source goal s' ∧ s'.settled = taken.id :: s.settled ∧
      s'.frontier.length ≤ (s.frontier.erase taken).length + (r.links taken.id).length := by
  intro left s'
  have hfollowed : Followed r source taken.id (r.links taken.id) left s' :=
    (h.settling.settle htaken hnew).relax_all List.mem_cons_self taken.distance fun _ h => h
  have hkept : ∀ {x}, Found s x → Found s' x := by
    intro x hx
    refine hfollowed.kept x ?_
    rcases hx.erase taken with rfl | hfound
    · exact Or.inl List.mem_cons_self
    · exact hfound.imp_left (List.mem_cons_of_mem _)
  refine ⟨⟨hfollowed.settling, hkept h.begun, fun id hid rel hrel next hto => ?_, fun hmem => ?_⟩,
    hfollowed.settled, hfollowed.length_le⟩
  · rw [hfollowed.settled] at hid
    rcases List.mem_cons.1 hid with rfl | hid
    · exact hfollowed.found rel hrel next hto
    · exact hkept (h.followed id hid rel hrel next hto)
  · rw [hfollowed.settled] at hmem
    rcases List.mem_cons.1 hmem with heq | hmem
    · exact hgoal heq.symm
    · exact h.missed hmem

/-- What is settled leaves less to do, whatever comes to wait. -/
theorem work_settle (hr : r.Surveyable source) {s' : State} (hid : r.Reaches source id)
    (hnew : id ∉ s.settled) (hsettled : s'.settled = id :: s.settled)
    (hlength : s'.frontier.length < s.frontier.length + (r.links id).length) :
    work hr s' < work hr s := by
  have hmem : id ∈ hr.finite.toFinset.filter (· ∉ s.settled) :=
    Finset.mem_filter.2 ⟨hr.finite.mem_toFinset.2 hid, hnew⟩
  have hleft : hr.finite.toFinset.filter (· ∉ s'.settled) =
      (hr.finite.toFinset.filter (· ∉ s.settled)).erase id := by
    ext x
    rw [hsettled]
    simp only [Finset.mem_filter, Finset.mem_erase, List.mem_cons, not_or]
    tauto
  have hsum := Finset.add_sum_erase _ (fun id => (r.links id).length) hmem
  unfold work
  rw [hleft]
  omega

/-- **A turn that goes on leaves less to do.** -/
theorem again (h : Rested r source goal s) (hr : r.Surveyable source)
    {asked : List GraphQuestion} {s' : State} (hturn : Chooses r goal s ⟨asked, .ok (.again s')⟩) :
    Rested r source goal s' ∧ work hr s' < work hr s := by
  cases hturn with
  | passed hnearest hold =>
    refine ⟨h.drop hold, ?_⟩
    unfold work
    exact Nat.add_lt_add_right (length_erase_lt hnearest.mem) _
  | followed hnearest hnew hgoal =>
    have hreaches := (h.settling.settle hnearest.mem hnew).reaches List.mem_cons_self
    have hlength := length_erase_lt hnearest.mem
    obtain ⟨hrested, hsettled, hmany⟩ := h.settle hnearest.mem hnew hgoal
    exact ⟨hrested, work_settle hr hreaches hnew hsettled (by omega)⟩

/-- **A turn that ends has chosen**, or there is nothing to choose. -/
theorem finished (h : Rested r source goal s) {asked : List GraphQuestion}
    {choice : Option (Trace × Waiting)}
    (hturn : Chooses r goal s ⟨asked, .ok (.finished choice)⟩) : Chosen r source goal choice := by
  cases hturn with
  | empty hempty => exact .nowhere fun hreaches => h.missed (h.settled_of_reaches hempty hreaches)
  | arrived hnearest hnew hgoal =>
    obtain ⟨places, steps, hwalk, hleads, -, hlength⟩ := h.settling.exists_way hnearest.mem hnew
    exact .along hwalk hleads hlength hgoal

end Rested

/-- **The choice ends**, with whatever its turns bring about: what holds of
the source alone, and is kept from turn to turn, holds until then. It may
speak of what was asked. -/
theorem play_choose_of_invariant (hr : r.Surveyable source) (goal : String)
    (inv : List GraphQuestion → State → Prop)
    (post : List GraphQuestion → Option (Trace × Waiting) → Prop)
    (hstart : inv [] (start source))
    (hagain : ∀ asked s more s', Rested r source goal s → inv asked s →
      Chooses r goal s ⟨more, .ok (.again s')⟩ → inv (asked ++ more) s')
    (hfinished : ∀ asked s more choice, Rested r source goal s → inv asked s →
      Chooses r goal s ⟨more, .ok (.finished choice)⟩ → post (asked ++ more) choice) :
    ∃ asked choice, (iterate (choose (some goal)) (idBudget r.extent) (start source)).play
      r.answer = ⟨asked, .ok choice⟩ ∧ post asked choice := by
  have hwork : work hr (start source) < idBudget r.extent := by
    have hextent := hr.extent
    unfold work
    simp only [start, List.length_singleton, List.not_mem_nil, not_false_eq_true,
      Finset.filter_true, idBudget]
    omega
  refine play_iterate
    (fun left asked s => (Rested r source goal s ∧ inv asked s) ∧ work hr s = left) post ?_
    [] ⟨⟨rested_start r, hstart⟩, rfl⟩ hwork
  rintro _ asked s ⟨⟨hrested, hinv⟩, rfl⟩
  have hturn := hrested.settling.chooses hr goal
  rcases hturn.again_or_finished with ⟨more, s', hplay⟩ | ⟨more, choice, hplay⟩
  · rw [hplay] at hturn
    obtain ⟨hrested', hless⟩ := hrested.again hr hturn
    exact Or.inl ⟨more, s', _, hplay, ⟨⟨hrested', hagain asked s more s' hrested hinv hturn⟩, rfl⟩,
      hless⟩
  · rw [hplay] at hturn
    exact Or.inr ⟨more, choice, hplay, hfinished asked s more choice hrested hinv hturn⟩

/-- **A way to the goal is chosen**, unless none leads there. -/
theorem play_choose (hr : r.Surveyable source) (goal : String) :
    ∃ asked choice, (iterate (choose (some goal)) (idBudget r.extent) (start source)).play
      r.answer = ⟨asked, .ok choice⟩ ∧ Chosen r source goal choice :=
  play_choose_of_invariant hr goal (fun _ _ => True) (fun _ choice => Chosen r source goal choice)
    trivial (fun _ _ _ _ _ _ _ => trivial) fun _ _ _ _ hrested _ hturn => hrested.finished hturn

end Weighted

end Search

namespace Repository

/-- Whether two repositories have the same relationships. Their entities may
differ. -/
structure SameLinks (r r' : Repository) : Prop where
  answer : ∀ id, r.answer (.relationships (.text id) (.bool true) (.bool false)) =
    r'.answer (.relationships (.text id) (.bool true) (.bool false))
  extent : r.extent = r'.extent

variable {r r' : Repository} {id last : String} {places : List ℕ} {steps : Way}

theorem SameLinks.refl (r : Repository) : r.SameLinks r := ⟨fun _ => rfl, rfl⟩

theorem SameLinks.walk (h : r.SameLinks r') (hwalk : r.Walk id places steps last) :
    r'.Walk id places steps last :=
  hwalk.of_links fun id => by rw [links, links, h.answer id]

end Repository

namespace Search

open Repository Dialogue

variable {r : Repository} {source : String}

/-- A way that was chosen is followed to its path, as far as entities are
there. -/
theorem play_pathAlong_walk (hr : r.Surveyable source) {trace : Trace} {goal : String}
    {places : List ℕ} {steps : Way} (hwalk : r.Walk source places steps goal)
    (hleads : trace.Leads source goal steps) (hlength : steps.length ≤ trace.length)
    (weight : Binary64) :
    ((pathAlong trace source goal weight).play r.answer).outcome =
      .ok ((r.pathOf source steps).map (.weighing weight)) :=
  play_pathAlong_weighing hleads hlength
    (fun _ hid => hr.answer_entity (hwalk.reaches_of_mem .start hid)) weight

/-- **The search for the least weight chooses a way, and then asks for
entities.** -/
theorem play_leastWeight_eq {goal : String} (hgoal : goal ≠ source) (budget : ℕ)
    (answer : (q : GraphQuestion) → Except Fault q.Answer) :
    (leastWeight budget source (some goal)).play answer =
      ((iterate (Weighted.choose (some goal)) budget (Weighted.start source)).play answer).andThen
        fun choice => (Weighted.pathTo source choice).play answer := by
  have hturn : Weighted.turn source (some goal) = fun s =>
      (Weighted.choose (some goal) s).bind (Turn.conclude (Weighted.pathTo source)) :=
    funext (Weighted.turn_eq source (some goal))
  rw [leastWeight, if_neg (fun h => hgoal (Option.some.inj h)), hturn, ← iterate_bind, play_bind]

/-- **The search for the least weight chooses a way by relationships
alone.** With whatever entities there are it finds the path along that
way, or none if an entity is missing there. Only where nothing leads to
the goal there is no way to choose. -/
theorem exists_way_leastWeight (hr : r.Surveyable source) (goal : String) :
    ∃ way? : Option Way, (way? = none ↔ ¬ r.Reaches source goal) ∧
      (∀ steps ∈ way?, ∃ places, r.Walk source places steps goal) ∧
      ∀ r' : Repository, r.SameLinks r' → r'.Surveyable source → ∃ path?,
        ((leastWeight (idBudget r'.extent) source (some goal)).play r'.answer).outcome =
          .ok path? ∧ path?.map Path.unweighted = way?.bind (r'.pathOf source) := by
  by_cases hgoal : goal = source
  · subst hgoal
    refine ⟨some [], iff_of_false (Option.some_ne_none _) (not_not_intro .start),
      fun steps hsteps => ?_, fun r' _ hr' => ?_⟩
    · obtain rfl := Option.some.inj hsteps
      exact ⟨[], .here⟩
    · refine ⟨(r'.entity? goal).map fun e => ⟨[e], [], .zero, rfl⟩, ?_, ?_⟩
      · rw [leastWeight, if_pos rfl, stay, GraphDialogue.entity, Dialogue.bind,
          play_ask_of_ok (hr'.answer_entity .start)]
        rfl
      · rw [Option.map_map]
        exact (r'.pathOf_nil goal).symm
  obtain ⟨asked, choice, hplay, hchosen⟩ := Weighted.play_choose hr goal
  -- the same way is chosen in every repository with these relationships
  have hsame : ∀ r' : Repository, r.SameLinks r' →
      (leastWeight (idBudget r'.extent) source (some goal)).play r'.answer =
        Run.andThen ⟨asked, .ok choice⟩ fun c => (Weighted.pathTo source c).play r'.answer := by
    intro r' hlinks
    let loop := iterate (Weighted.choose (some goal)) (idBudget r.extent) (Weighted.start source)
    have hasks : loop.Asks Weighted.AsksOnward := .iterate (Weighted.asks_choose (some goal)) _ _
    have hloop : loop.play r.answer = loop.play r'.answer := by
      refine hasks.play_eq ?_
      rintro q ⟨id, rfl⟩
      exact hlinks.answer id
    rw [play_leastWeight_eq hgoal, ← hlinks.extent, ← hloop, hplay]
  cases hchosen with
  | nowhere hno =>
    refine ⟨none, iff_of_true rfl hno, fun _ h => absurd h (Option.not_mem_none _),
      fun r' hlinks _ => ?_⟩
    exact ⟨none, by rw [hsame r' hlinks]; rfl, rfl⟩
  | @along trace taken places steps hwalk hleads hlength htaken =>
    subst htaken
    refine ⟨some steps, iff_of_false (Option.some_ne_none _) (not_not_intro (hwalk.reaches .start)),
      fun steps' hsteps => ?_, fun r' hlinks hr' => ?_⟩
    · obtain rfl := Option.some.inj hsteps
      exact ⟨places, hwalk⟩
    · refine ⟨(r'.pathOf source steps).map (.weighing taken.distance), ?_, ?_⟩
      · rw [hsame r' hlinks, Run.andThen_ok]
        exact play_pathAlong_walk hr' (hlinks.walk hwalk) hleads hlength taken.distance
      · rw [Option.map_map]
        exact r'.map_weighing_zero_pathOf source steps

end Search

end KnowledgeGraph
