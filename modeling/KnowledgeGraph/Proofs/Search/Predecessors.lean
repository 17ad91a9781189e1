import KnowledgeGraph.Proofs.Search.Bookkeeping
import KnowledgeGraph.Proofs.Search.Weighted
/-!
# Predecessors

A search for one path remembers of an id where it came to it from, and goes
back along these memories when it arrives. By weight it may remember
something else of an id later on, along relationships of no weight too, so
neither the weights nor the memories by themselves tell that the way back
ends. What does is the order in which ids are entered: the trace leads to
each of them through ids entered before, and changes for none of them any
more (`Trace.Rooted`). Breadth first an id is entered when it is reached,
and by weight when it is settled.

Nothing of this depends on the answers. So in every run, whatever the
repository answers and however it changes, the way back is found from each
id that a search takes, and no path is refused for its shape
(`searches_retrace`).
-/

namespace KnowledgeGraph

open Dialogue

/-! ## Traces -/

namespace Trace

/-- Whether the way back from an id is found: it ends at the source, comes to
no id twice and has one relationship less than ids. -/
def Retraces (trace : Trace) (source id : String) : Prop :=
  ∃ ids followed, trace.back source id = .ok (ids, followed) ∧ ids.Nodup ∧
    ids.head? = some source ∧ ids.getLast? = some id ∧ ids.length = followed.length + 1

/-- Whether a trace leads from a source to each of some ids, through these ids
and to none of them twice. -/
def Rooted (trace : Trace) (source : String) (ids : List String) : Prop :=
  ∀ id ∈ ids, ∃ steps, trace.Leads source id steps ∧ (source :: steps.map Prod.snd).Nodup ∧
    ∀ x ∈ steps.map Prod.snd, x ∈ ids

variable {trace : Trace} {source id next : String} {ids : List String} {steps : Way}

theorem Leads.getLast?_eq (h : trace.Leads source id steps) :
    (source :: steps.map Prod.snd).getLast? = some id := by
  cases h with
  | here => rfl
  | onward _ _ _ => rw [List.map_append, ← List.cons_append]; exact List.getLast?_concat

/-- A way that comes to no id twice is found back. -/
theorem Leads.retraces (h : trace.Leads source id steps)
    (hnodup : (source :: steps.map Prod.snd).Nodup) : trace.Retraces source id := by
  exact ⟨_, _, h.back_eq (h.length_le hnodup), hnodup, rfl, h.getLast?_eq, by simp⟩

theorem rooted_source (trace : Trace) (source : String) : trace.Rooted source [source] := by
  intro id hid
  obtain rfl := List.mem_singleton.1 hid
  exact ⟨[], .here, List.nodup_singleton _, fun _ h => nomatch h⟩

namespace Rooted

theorem retraces (h : trace.Rooted source ids) (hid : id ∈ ids) : trace.Retraces source id := by
  obtain ⟨steps, hleads, hnodup, -⟩ := h id hid
  exact hleads.retraces hnodup

/-- **Nothing changes** for the ids entered if something is remembered of
another. -/
theorem remember (h : trace.Rooted source ids) (hnew : next ∉ ids)
    (memory : String × Relationship) : Rooted ((next, memory) :: trace) source ids := by
  intro id hid
  obtain ⟨steps, hleads, hnodup, hthrough⟩ := h id hid
  exact ⟨steps, hleads.cons_of_notMem (fun hmem => hnew (hthrough next hmem)) memory, hnodup,
    hthrough⟩

/-- **An id is entered** after the one that it is remembered from, or it is
the source. -/
theorem enter (h : trace.Rooted source ids) (hnew : id ∉ ids)
    (hfrom : id = source ∨ ∃ origin ∈ ids, ∃ rel, trace.lookup id = some (origin, rel)) :
    trace.Rooted source (id :: ids) := by
  have hmore : ∀ {x}, x ∈ ids → x ∈ id :: ids := List.mem_cons_of_mem id
  intro x hx
  rcases List.mem_cons.1 hx with rfl | hx
  case inr =>
    obtain ⟨steps, hleads, hnodup, hthrough⟩ := h x hx
    exact ⟨steps, hleads, hnodup, fun y hy => hmore (hthrough y hy)⟩
  by_cases hsource : x = source
  · subst hsource
    exact ⟨[], .here, List.nodup_singleton _, fun _ h => nomatch h⟩
  -- the way there is that to its origin, entered before, and one step more
  obtain ⟨origin, horigin, rel, hlookup⟩ := hfrom.resolve_left hsource
  obtain ⟨steps, hleads, hnodup, hthrough⟩ := h origin horigin
  refine ⟨steps ++ [(rel, x)], .onward hsource hlookup hleads, nodup_onward hnodup rel ?_,
    fun y hy => ?_⟩
  · rw [List.mem_cons, not_or]
    exact ⟨hsource, fun hmem => hnew (hthrough x hmem)⟩
  · rw [List.map_append, List.mem_append] at hy
    rcases hy with hy | hy
    · exact hmore (hthrough y hy)
    · exact List.mem_singleton.1 hy ▸ List.mem_cons_self

end Rooted

end Trace

namespace Search

variable {source id : String} {goal : Option String}

/-- A path is never refused where the way back is found. -/
theorem ensures_pathAlong {trace : Trace} (h : trace.Retraces source id) (weight : Binary64) :
    (pathAlong trace source id weight).Ensures (fun _ => True) fun _ => False := by
  obtain ⟨ids, followed, hback, -, -, -, hlength⟩ := h
  rw [pathAlong, hback]
  exact (Resolved.ensures_path [] hlength weight).bind fun _ _ => trivial

/-! ## Breadth first -/

namespace Breadth

/-- What holds whatever is answered: the trace leads to all that was reached,
and what waits was reached. -/
structure Traced (source : String) (s : State) : Prop where
  rooted : s.trace.Rooted source s.reached
  queue : ∀ id ∈ s.queue, id ∈ s.reached

variable {s : State}

theorem traced_start (source : String) : Traced source (start source) :=
  ⟨Trace.rooted_source _ source, fun _ h => h⟩

/-- What is discovered is entered after the id that led to it. -/
theorem Traced.discover (h : Traced source s) (hid : id ∈ s.reached) (rel : Relationship) :
    Traced source (discover id s rel) ∧ id ∈ (discover id s rel).reached := by
  unfold Breadth.discover
  cases rel.neighborOf id with
  | none => exact ⟨h, hid⟩
  | some next =>
    dsimp only
    split
    · exact ⟨h, hid⟩
    · rename_i hmem
      have hnew : next ∉ s.reached := mt List.contains_iff_mem.2 hmem
      refine ⟨⟨?_, fun x hx => ?_⟩, List.mem_cons_of_mem _ hid⟩
      · exact (h.rooted.remember hnew (id, rel)).enter hnew
          (Or.inr ⟨id, hid, rel, List.lookup_cons_self⟩)
      · rcases List.mem_append.1 hx with hx | hx
        · exact List.mem_cons_of_mem _ (h.queue x hx)
        · exact List.mem_singleton.1 hx ▸ List.mem_cons_self

/-- **Every turn keeps the ways back**, and is refused no path. -/
theorem ensures_turn (h : Traced source s) :
    (turn source goal s).Ensures (Turn.Keeps (Traced source) fun _ => True) fun _ => False := by
  unfold turn
  split
  · trivial
  · rename_i id queue hqueue
    have hid : id ∈ s.reached := h.queue id (hqueue ▸ List.mem_cons_self)
    show Ensures _ _ _
    split
    · exact (ensures_pathAlong (h.rooted.retraces hid) .zero).bind fun _ _ => trivial
    · intro rels
      have htaken : Traced source { s with queue } :=
        ⟨h.rooted, fun x hx => h.queue x (hqueue ▸ List.mem_cons_of_mem _ hx)⟩
      exact (List.foldlRecOn rels (discover id)
        (motive := fun s => Traced source s ∧ id ∈ s.reached) ⟨htaken, hid⟩
        fun s hs rel _ => hs.1.discover hs.2 rel).1

end Breadth

/-! ## By weight -/

namespace Weighted

/-- What holds whatever is answered: the trace leads to all that is settled,
and remembers of what waits that it comes from there. -/
structure Traced (source : String) (s : State) : Prop where
  rooted : s.trace.Rooted source s.settled
  waiting : ∀ w ∈ s.frontier, w.id ∉ s.settled →
    w.id = source ∨ ∃ origin ∈ s.settled, ∃ rel, s.trace.lookup w.id = some (origin, rel)

/-- The id that is taken next. -/
def nextId? (s : State) : Option String :=
  match s.frontier with
  | [] => none
  | first :: others => some (nearest first others).id

variable {s : State} {taken : Waiting}

theorem traced_start (source : String) : Traced source (start source) :=
  ⟨fun _ h => (nomatch h), fun _ hw _ => Or.inl (List.mem_singleton.1 hw ▸ rfl)⟩

/-- A better way is remembered for what is not settled only. -/
theorem Traced.relax (h : Traced source s) (hid : id ∈ s.settled) (distance : Binary64)
    (rel : Relationship) :
    Traced source (relax id distance s rel) ∧ id ∈ (relax id distance s rel).settled := by
  rcases relax_cases id distance s rel with ⟨hsame, -⟩ | ⟨next, -, hnew, -, hsame⟩
  · rw [hsame]
    exact ⟨h, hid⟩
  · rw [hsame]
    refine ⟨⟨h.rooted.remember hnew (id, rel), fun w hw hunsettled => ?_⟩, hid⟩
    -- of an id that waited before, what is remembered may be replaced
    by_cases hnext : w.id = next
    · exact Or.inr ⟨id, hid, rel, by rw [hnext]; exact List.lookup_cons_self⟩
    · have hold : w ∈ s.frontier := by
        rcases List.mem_append.1 hw with hw | hw
        · exact hw
        · exact absurd (List.mem_singleton.1 hw ▸ rfl) hnext
      refine (h.waiting w hold hunsettled).imp_right ?_
      rintro ⟨origin, horigin, other, hlookup⟩
      exact ⟨origin, horigin, other, by rwa [lookup_cons_of_ne hnext]⟩

/-- What waits is entered when it is settled. -/
theorem Traced.settle (h : Traced source s) (htaken : taken ∈ s.frontier)
    (hnew : taken.id ∉ s.settled) :
    Traced source
      { s with frontier := s.frontier.erase taken, settled := taken.id :: s.settled } := by
  refine ⟨h.rooted.enter hnew (h.waiting taken htaken hnew), fun w hw hunsettled => ?_⟩
  rw [List.mem_cons, not_or] at hunsettled
  refine (h.waiting w (List.mem_of_mem_erase hw) hunsettled.2).imp_right ?_
  rintro ⟨origin, horigin, hlookup⟩
  exact ⟨origin, List.mem_cons_of_mem _ horigin, hlookup⟩

/-- **Every turn keeps the ways back**, and is refused no path. -/
theorem ensures_turn (h : Traced source s) :
    (turn source goal s).Ensures (Turn.Keeps (Traced source) fun _ => True) fun _ => False := by
  unfold turn
  split
  · trivial
  · rename_i first others hfrontier
    have htaken : nearest first others ∈ s.frontier := hfrontier ▸ nearest_mem first others
    dsimp only
    rw [← hfrontier]
    generalize nearest first others = taken at *
    show Ensures _ _ _
    split
    · exact ⟨h.rooted, fun w hw => h.waiting w (List.mem_of_mem_erase hw)⟩
    · rename_i hmem
      have hsettled := h.settle htaken (mt List.contains_iff_mem.2 hmem)
      split
      · have hback := hsettled.rooted.retraces List.mem_cons_self
        exact (ensures_pathAlong hback taken.distance).bind fun _ _ => trivial
      · intro rels
        exact (List.foldlRecOn rels (Weighted.relax taken.id taken.distance)
          (motive := fun s => Traced source s ∧ taken.id ∈ s.settled)
          ⟨hsettled, List.mem_cons_self⟩ fun s hs rel _ => hs.1.relax hs.2 taken.distance rel).1

end Weighted

/-! ## In every run -/

section Run

variable {reply : Nat → (q : GraphQuestion) → Except Fault q.Answer} {token : Option Token}

/-- **Breadth first the way back is found** from each id that is taken. -/
theorem Breadth.retraces_of_mem_heads (source : String) (goal : Option String) (budget : ℕ) :
    ∀ s ∈ heads reply token (Breadth.turn source goal) budget 0 (Breadth.start source),
      ∀ id, s.queue.head? = some id → s.trace.Retraces source id := by
  intro s hs id hid
  have htraced : Breadth.Traced source s :=
    forall_mem_heads (fun _ => Breadth.ensures_turn) budget 0 (Breadth.traced_start source) s hs
  exact htraced.rooted.retraces (htraced.queue id (List.mem_of_head? hid))

/-- **By weight the way back is found** from each id that is taken. -/
theorem Weighted.retraces_of_mem_heads (source : String) (goal : Option String) (budget : ℕ) :
    ∀ s ∈ heads reply token (Weighted.turn source goal) budget 0 (Weighted.start source),
      ∀ id, Weighted.nextId? s = some id → s.trace.Retraces source id := by
  intro s hs id hid
  have htraced : Weighted.Traced source s :=
    forall_mem_heads (fun _ => Weighted.ensures_turn) budget 0 (Weighted.traced_start source) s hs
  unfold Weighted.nextId? at hid
  split at hid
  · cases hid
  · rename_i first others hfrontier
    obtain rfl := Option.some.inj hid
    have hwaits : nearest first others ∈ s.frontier := hfrontier ▸ nearest_mem first others
    -- what waits twice may be settled already; then it was entered before
    by_cases hsettled : (nearest first others).id ∈ s.settled
    · exact htraced.rooted.retraces hsettled
    · exact (htraced.settle hwaits hsettled).rooted.retraces List.mem_cons_self

/-- **A search for one path ends in no fault by itself**, but in that of its
turns having run out. -/
theorem ensures_fewestHops (budget : ℕ) (source : String) (goal : Option String) :
    (fewestHops budget source goal).Ensures (fun _ => True) (· = .exhausted) := by
  unfold fewestHops
  split
  · exact ensures_stay (.text source)
  · have hstart := Breadth.traced_start source
    exact Ensures.iterate_of_keeps (fun _ => Breadth.ensures_turn) budget hstart

theorem ensures_leastWeight (budget : ℕ) (source : String) (goal : Option String) :
    (leastWeight budget source goal).Ensures (fun _ => True) (· = .exhausted) := by
  unfold leastWeight
  split
  · exact ensures_stay (.text source)
  · have hstart := Weighted.traced_start source
    exact Ensures.iterate_of_keeps (fun _ => Weighted.ensures_turn) budget hstart

/-- **Ways back are found, and no path is refused.** Whatever a repository
answers, and however a search for one path comes to the id that it takes
next, its goal or any other: the way back from there is found, comes to no
id twice, and has one relationship less than ids. And no search ends in a
fault of its own, but in that of its turns having run out: any other was
replied, or is that of its token. -/
theorem searches_retrace (source : String) (goal : Option String) (budget : ℕ) :
    (∀ s ∈ heads reply token (Breadth.turn source goal) budget 0 (Breadth.start source),
      ∀ id, s.queue.head? = some id → s.trace.Retraces source id) ∧
    (∀ s ∈ heads reply token (Weighted.turn source goal) budget 0 (Weighted.start source),
      ∀ id, Weighted.nextId? s = some id → s.trace.Retraces source id) ∧
    ∀ f, ((fewestHops budget source goal).run reply token).outcome = .error f ∨
        ((leastWeight budget source goal).run reply token).outcome = .error f ∨
        (∃ maxHops, ((allPaths budget source goal maxHops).run reply token).outcome = .error f) →
      f = .exhausted ∨ Token.Stops token f ∨ ∃ call q, reply call q = .error f := by
  refine ⟨Breadth.retraces_of_mem_heads source goal budget,
    Weighted.retraces_of_mem_heads source goal budget, ?_⟩
  rintro f (hrun | hrun | ⟨maxHops, hrun⟩)
  · exact (ensures_fewestHops budget source goal).of_error hrun
  · exact (ensures_leastWeight budget source goal).of_error hrun
  · exact (ensures_allPaths budget source goal maxHops).of_error hrun

end Run

/-- Both searches from "a" come to "d" in a graph with a cycle of no weight,
two relationships side by side, one either way, a loop, and one that does
not touch the id that it is answered for. By weight "c" is first remembered
from "a" and then from "b". The token is cancelled while the first entity on
the way is asked for. -/
theorem searches_retrace_replaced :
    let label : TypeLabel := ⟨"Corridor", by decide⟩
    let link (id source target : String) (directed : Bool) : Relationship :=
      ⟨id, label, source, target, [], .zero, directed, none, Binary64.zero_le_zero⟩
    let long : Relationship :=
      ⟨"3", label, "a", "c", [], .one, true, none, Binary64.zero_le_one⟩
    let r : Repository :=
      { Listing.repository ⟨[⟨"a", label, [], none⟩],
          [("a", [link "1" "a" "b" true, link "2" "a" "b" true, long]),
            ("b", [link "4" "x" "y" true, link "5" "b" "b" true, link "6" "c" "b" false]),
            ("c", [link "7" "c" "b" true, link "8" "c" "d" true])]⟩ with
        heedsTokens := true }
    let token : Option Token := some ⟨some 4, none⟩
    let reply := fun call q => r.reply (checkToken token call) q
    let byHops := heads reply token (Breadth.turn "a" (some "d")) 9 0 (Breadth.start "a")
    let byWeight := heads reply token (Weighted.turn "a" (some "d")) 9 0 (Weighted.start "a")
    (byHops.map (·.queue.head?) = [some "a", some "b", some "c", some "d"] ∧
      byWeight.map Weighted.nextId? = [some "a", some "b", some "c", some "d"] ∧
      ((fewestHops 9 "a" (some "d")).run reply token).outcome = .error .cancelled ∧
      ((leastWeight 9 "a" (some "d")).run reply token).outcome = .error .cancelled) ∧
    (∀ s ∈ byHops, ∀ id, s.queue.head? = some id → s.trace.Retraces "a" id) ∧
    (∀ s ∈ byWeight, ∀ id, Weighted.nextId? s = some id → s.trace.Retraces "a" id) ∧
    ∀ f, ((fewestHops 9 "a" (some "d")).run reply token).outcome = .error f ∨
        ((leastWeight 9 "a" (some "d")).run reply token).outcome = .error f ∨
        (∃ maxHops, ((allPaths 9 "a" (some "d") maxHops).run reply token).outcome = .error f) →
      f = .exhausted ∨ Token.Stops token f ∨ ∃ call q, reply call q = .error f := by
  intro label link long r token reply byHops byWeight
  exact ⟨by decide +kernel, searches_retrace "a" (some "d") 9⟩

end Search

end KnowledgeGraph
