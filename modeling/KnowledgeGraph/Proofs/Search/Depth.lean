import KnowledgeGraph.Proofs.Graph.Ways
import KnowledgeGraph.Proofs.Search.Retracing
import Mathlib.Algebra.Group.Action.Defs
import Mathlib.Data.List.ReduceOption
/-!
# Depth first, as plain recursion

A walk with a stack does in its turns what plain recursion would do in
its calls. `Repository.attempts` lists what these turns come to, a way
found or nothing; `Depth.pending` reads off a stack what is still to be
tried, and every turn takes the first of it (`Walking.play_turn`). So the
walk ends when all is tried, with the paths along all ways in their order
(`play_allPaths_of_lt`).

How many attempts there are is bounded by a power of the extent
(`length_attempts_le`), since no id is passed twice. Where that is known,
a budget can be given beforehand (`play_allPaths`).
-/

namespace KnowledgeGraph

namespace Repository

/-! ## Attempts -/

/-- What the turns that follow some relationship come to, where `further`
says what turns come to from the next id. -/
def trying (goal : String) (further : List String → String → List (Option Way))
    (passed : List String) (id : String) (rel : Relationship) : List (Option Way) :=
  match rel.neighborOf id with
  | none => [none]
  | some next =>
    if next ∈ passed then [none]
    else if next = goal then [some [(rel, next)]]
    else none :: (further (next :: passed) next).map (Option.map fun way => (rel, next) :: way)

/-- What the turns over some relationships of an id come to. With the last
turn the walk steps back. -/
def tryingAll (goal : String) (further : List String → String → List (Option Way))
    (passed : List String) (id : String) (rels : List Relationship) : List (Option Way) :=
  rels.flatMap (trying goal further passed id) ++ [none]

/-- What the turns from an id on come to, one after the other: a way to
the goal, or nothing. -/
def attempts (r : Repository) (goal : String) : ℕ → List String → String → List (Option Way)
  | 0, _, _ => []
  | n + 1, passed, id => tryingAll goal (attempts r goal n) passed id (r.links id)

variable {r : Repository} {source goal id : String} {n : ℕ} {passed : List String}
  {rel : Relationship}

theorem reduceOption_trying {further : List String → String → List (Option Way)}
    {onward : List String → String → List Way}
    (h : ∀ passed id, (further passed id).reduceOption = onward passed id) :
    (trying goal further passed id rel).reduceOption = waysBy goal onward passed id rel := by
  unfold trying waysBy
  cases rel.neighborOf id with
  | none => rfl
  | some next =>
    dsimp only
    split
    · rfl
    · split
      · rfl
      · rw [List.reduceOption_cons_of_none, List.reduceOption_map, h]

/-- **What attempts find are the ways.** -/
theorem reduceOption_attempts (r : Repository) (goal : String) (n : ℕ) (passed : List String)
    (id : String) : (r.attempts goal n passed id).reduceOption = r.ways goal n passed id := by
  induction n generalizing passed id with
  | zero => rfl
  | succ n ih =>
    rw [attempts, tryingAll, List.reduceOption_append, ways]
    have hnone : [(none : Option Way)].reduceOption = [] := rfl
    rw [hnone, List.append_nil, List.reduceOption, List.filterMap_flatMap]
    congr
    funext rel
    exact reduceOption_trying ih

theorem length_trying_le {further : List String → String → List (Option Way)} {bound : ℕ}
    (hpos : 0 < bound)
    (h : ∀ next, rel.neighborOf id = some next → next ∉ passed →
      (further (next :: passed) next).length + 1 ≤ bound) :
    (trying goal further passed id rel).length ≤ bound := by
  unfold trying
  cases hto : rel.neighborOf id with
  | none => exact hpos
  | some next =>
    dsimp only
    split
    · exact hpos
    · rename_i hnew
      split
      · exact hpos
      · rw [List.length_cons, List.length_map]
        exact h next hto hnew

/-- **There are not too many attempts.** Each id has at most as many
relationships as there are, and ids that were passed are not tried again. -/
theorem length_attempts_le (hr : r.Surveyable source) (hid : id ∈ passed) (hnodup : passed.Nodup)
    (hreaches : ∀ x ∈ passed, r.Reaches source x) (goal : String) (n : ℕ) :
    (r.attempts goal n passed id).length + 1 ≤
      (r.extent + 2) ^ min n (r.extent + 2 - passed.length) := by
  induction n generalizing passed id with
  | zero => simp [attempts]
  | succ n ih =>
    have hpassed := hr.length_le hnodup hreaches
    have hlinks := hr.length_links_le (hreaches id hid)
    -- no relationship takes more attempts than there are from any next id
    generalize hbound : (r.extent + 2) ^ min n (r.extent + 2 - (passed.length + 1)) = bound at *
    have hpos : 0 < bound := by
      rw [← hbound]
      exact Nat.pow_pos (Nat.succ_pos _)
    have heach : ∀ rel ∈ r.links id,
        (trying goal (r.attempts goal n) passed id rel).length ≤ bound := by
      intro rel hrel
      refine length_trying_le hpos fun next hto hnew => ?_
      rw [← hbound]
      refine ih List.mem_cons_self (List.nodup_cons.2 ⟨hnew, hnodup⟩) fun x hx => ?_
      rcases List.mem_cons.1 hx with rfl | hx
      · exact (hreaches id hid).follow hrel hto
      · exact hreaches x hx
    have hexponent : min (n + 1) (r.extent + 2 - passed.length) =
        min n (r.extent + 2 - (passed.length + 1)) + 1 := by omega
    rw [hexponent, pow_succ, hbound, attempts, tryingAll, List.length_append, List.length_flatMap,
      List.length_singleton]
    have hsum : ((r.links id).map fun rel =>
        (trying goal (r.attempts goal n) passed id rel).length).sum ≤ r.extent * bound := by
      refine (List.sum_le_card_nsmul _ bound ?_).trans ?_
      · intro length hlength
        obtain ⟨rel, hrel, rfl⟩ := List.mem_map.1 hlength
        exact heach rel hrel
      · rw [List.length_map, smul_eq_mul]
        exact Nat.mul_le_mul_right bound hlinks
    calc _ ≤ r.extent * bound + 1 + 1 := by omega
      _ ≤ bound * (r.extent + 2) := by
        rw [Nat.mul_add, Nat.mul_comm bound r.extent]
        omega

end Repository

namespace Search.Depth

open Repository Dialogue

/-- What is still to be tried by a walk with some frames, where the way
there is given with the latest relationship first. -/
def pending (r : Repository) (source goal : String) (maxHops : ℕ) :
    List Frame → Way → List (Option Way)
  | [], _ => []
  | ⟨id, untried⟩ :: below, back =>
    (tryingAll goal (r.attempts goal (maxHops - back.length - 1)) (back.map Prod.snd ++ [source]) id
        untried).map (Option.map fun way => back.reverse ++ way) ++
      pending r source goal maxHops below back.tail

/-- A walk in progress: its frames stand for the ids on the path, none of
them twice, with room for one relationship more. -/
structure Walking (r : Repository) (source : String) (maxHops : ℕ) (back : Way) (s : State) :
    Prop where
  onPath : s.onPath = back.map Prod.snd ++ [source]
  followed : s.followed = back.map Prod.fst
  members : s.members = s.onPath
  frames : s.stack.map Frame.id = s.onPath
  nodup : s.onPath.Nodup
  room : back.length < maxHops
  untried : ∀ frame ∈ s.stack, ∀ rel ∈ frame.untried, rel ∈ r.links frame.id
  reaches : ∀ id ∈ s.onPath, r.Reaches source id
  resolved : s.resolved.Agrees r

/-- A walk that is over. -/
structure Ended (s : State) : Prop where
  stack : s.stack = []
  onPath : s.onPath = []
  members : s.members = []
  followed : s.followed = []

/-- What a turn comes to that takes the first of some attempts: the walk
goes on or is over, with the other attempts pending, and with what the
first one found. -/
def Takes (r : Repository) (source goal : String) (maxHops : ℕ) (found : List Path)
    (attempts : List (Option Way)) (run : Run GraphQuestion (Turn State (List Path))) : Prop :=
  ∃ asked s' back' attempt,
    run = ⟨asked, .ok (.again s')⟩ ∧
    attempts = attempt :: pending r source goal maxHops s'.stack back' ∧
    s'.found = found ++ (attempt.bind (r.pathOf source)).toList ∧
    (Walking r source maxHops back' s' ∨ Ended s')

variable {r : Repository} {source goal id next : String} {maxHops : ℕ} {back : Way} {s : State}
  {rel : Relationship} {untried : List Relationship} {below : List Frame}

/-- Relationships are tried one after the other. -/
theorem pending_cons (id : String) (rel : Relationship) (untried : List Relationship)
    (below : List Frame) (back : Way) :
    pending r source goal maxHops (⟨id, rel :: untried⟩ :: below) back =
      (trying goal (r.attempts goal (maxHops - back.length - 1)) (back.map Prod.snd ++ [source]) id
          rel).map (Option.map fun way => back.reverse ++ way) ++
        pending r source goal maxHops (⟨id, untried⟩ :: below) back := by
  simp [pending, tryingAll]

/-- Where no id stands twice, those other than the first are what follows. -/
theorem filter_ne_of_nodup {ids : List String} (h : (id :: ids).Nodup) :
    (id :: ids).filter (· ≠ id) = ids := by
  rw [List.filter_cons_of_neg (by simp)]
  refine List.filter_eq_self.2 fun x hx => ?_
  exact decide_eq_true fun heq => (List.nodup_cons.1 h).1 (heq ▸ hx)

namespace Walking

/-- A walk in progress whose latest frame has one relationship less to
try. -/
theorem tried (h : Walking r source maxHops back s)
    (hstack : s.stack = ⟨id, rel :: untried⟩ :: below) :
    Walking r source maxHops back { s with stack := ⟨id, untried⟩ :: below } := by
  obtain ⟨onPath, followed, members, frames, nodup, room, untried', reaches, resolved⟩ := h
  rw [hstack] at frames untried'
  refine ⟨onPath, followed, members, frames, nodup, room, fun frame hframe => ?_, reaches, resolved⟩
  rcases List.mem_cons.1 hframe with rfl | hframe
  · exact fun other hother => untried' _ List.mem_cons_self other (List.mem_cons_of_mem _ hother)
  · exact untried' frame (List.mem_cons_of_mem _ hframe)

/-- The latest frame is that of the latest id on the path. -/
theorem onPath_eq (h : Walking r source maxHops back s) {frame : Frame}
    (hstack : s.stack = frame :: below) : s.onPath = frame.id :: below.map Frame.id := by
  rw [← h.frames, hstack]
  rfl

theorem reaches_id (h : Walking r source maxHops back s) {frame : Frame}
    (hstack : s.stack = frame :: below) : r.Reaches source frame.id :=
  h.reaches _ (by rw [h.onPath_eq hstack]; exact List.mem_cons_self)

/-- To step back ends the walk or leaves it in progress. -/
theorem retreat (h : Walking r source maxHops back s) (hstack : s.stack = ⟨id, []⟩ :: below) :
    Walking r source maxHops back.tail (retreat s ⟨id, []⟩ below) ∨
      Ended (Depth.retreat s ⟨id, []⟩ below) := by
  have honPath := h.onPath_eq hstack
  have hnodup := h.nodup
  rw [honPath] at hnodup
  have htail : s.onPath.tail = below.map Frame.id := by rw [honPath]; rfl
  have hmembers : s.members.filter (· ≠ id) = s.onPath.tail := by
    rw [h.members, htail, honPath, filter_ne_of_nodup hnodup]
  have hback := h.onPath
  rw [honPath] at hback
  cases back with
  | nil =>
    have hbelow : below.map Frame.id = [] := (List.cons.inj hback).2
    have hfollowed := h.followed
    exact Or.inr ⟨List.map_eq_nil_iff.1 hbelow, htail.trans hbelow,
      hmembers.trans (htail.trans hbelow), by simp [Depth.retreat, hfollowed]⟩
  | cons step back =>
    left
    have hrest : below.map Frame.id = back.map Prod.snd ++ [source] := (List.cons.inj hback).2
    refine ⟨htail.trans hrest, ?_, hmembers, htail.symm, ?_, ?_, ?_, ?_, h.resolved⟩
    · simp [Depth.retreat, h.followed]
    · rw [Depth.retreat, htail]
      exact (List.nodup_cons.1 hnodup).2
    · exact Nat.lt_of_succ_lt h.room
    · intro frame hframe
      exact h.untried frame (by rw [hstack]; exact List.mem_cons_of_mem _ hframe)
    · intro x hx
      exact h.reaches x (List.mem_of_mem_tail hx)

/-- To step on leaves the walk in progress, if there is room for one
relationship more. -/
theorem advance (h : Walking r source maxHops back s) (hstack : s.stack = ⟨id, untried⟩ :: below)
    (hrel : rel ∈ r.links id) (hto : rel.neighborOf id = some next) (hnew : next ∉ s.onPath)
    (hroom : back.length + 1 < maxHops) :
    Walking r source maxHops ((rel, next) :: back)
      { s with
        stack := ⟨next, r.links next⟩ :: s.stack
        onPath := next :: s.onPath
        members := next :: s.members
        followed := rel :: s.followed } := by
  have hreaches := (h.reaches_id hstack).follow hrel hto
  refine ⟨?_, ?_, ?_, ?_, List.nodup_cons.2 ⟨hnew, h.nodup⟩, hroom, ?_, ?_, h.resolved⟩
  · simp [h.onPath]
  · simp [h.followed]
  · simp [h.members]
  · simp [h.frames]
  · intro frame hframe
    rcases List.mem_cons.1 hframe with rfl | hframe
    · exact fun other hother => hother
    · exact h.untried frame hframe
  · intro x hx
    rcases List.mem_cons.1 hx with rfl | hx
    · exact hreaches
    · exact h.reaches x hx

/-- At the goal the path along the way is kept, if there is one. -/
theorem play_collect (h : Walking r source maxHops back s)
    (hr : r.Answers source) (hnext : r.Reaches source next) :
    ∃ asked resolved, (collect s next rel).play r.answer =
        ⟨asked, .ok { s with
          found := s.found ++ (r.pathOf source (back.reverse ++ [(rel, next)])).toList,
          resolved }⟩ ∧
      resolved.Agrees r := by
  have hids : (next :: s.onPath).reverse =
      source :: (back.reverse ++ [(rel, next)]).map Prod.snd := by
    simp [h.onPath]
  have hfollowed : (rel :: s.followed).reverse = (back.reverse ++ [(rel, next)]).map Prod.fst := by
    simp [h.followed]
  have hanswered : ∀ x ∈ source :: (back.reverse ++ [(rel, next)]).map Prod.snd,
      r.answer (.entity (.text x)) = .ok (r.entity? x) := by
    intro x hx
    rw [← hids, List.mem_reverse] at hx
    rcases List.mem_cons.1 hx with rfl | hx
    · exact hr.answer_entity hnext
    · exact hr.answer_entity (h.reaches x hx)
  obtain ⟨asked, resolved, hplay, hagrees⟩ := h.resolved.play_path hanswered
  refine ⟨asked ++ [], resolved, ?_, hagrees⟩
  rw [collect, hids, hfollowed, play_bind, hplay]
  rfl

/-! ### The turns of a walk -/

/-- The relationship is passed over. -/
theorem takes_none (h : Walking r source maxHops back s) (goal : String) :
    Takes r source goal maxHops s.found (none :: pending r source goal maxHops s.stack back)
      ⟨[], .ok (.again s)⟩ :=
  ⟨[], s, back, none, rfl, rfl, (List.append_nil _).symm, Or.inl h⟩

/-- A way to the goal is found. -/
theorem takes_found (h : Walking r source maxHops back s) (hr : r.Answers source)
    (hnext : r.Reaches source next) (goal : String) :
    Takes r source goal maxHops s.found
      (some (back.reverse ++ [(rel, next)]) :: pending r source goal maxHops s.stack back)
      (((collect s next rel).bind fun after => .done (.again after)).play r.answer) := by
  obtain ⟨asked, resolved, hplay, hagrees⟩ := h.play_collect hr hnext
  rw [play_bind, hplay]
  refine ⟨asked ++ [], _, back, _, rfl, rfl, rfl, Or.inl ?_⟩
  obtain ⟨onPath, followed, members, frames, nodup, room, untried, reaches, -⟩ := h
  exact ⟨onPath, followed, members, frames, nodup, room, untried, reaches, hagrees⟩

/-- The walk steps on, and what is tried from there comes first. -/
theorem takes_onward (h : Walking r source maxHops back s) (hr : r.Answers source)
    (hstack : s.stack = ⟨id, untried⟩ :: below) (hrel : rel ∈ r.links id)
    (hto : rel.neighborOf id = some next) (hnew : next ∉ s.onPath)
    (hroom : back.length + 1 < maxHops) (goal : String) :
    Takes r source goal maxHops s.found
      (none :: ((r.attempts goal (maxHops - back.length - 1)
            (next :: (back.map Prod.snd ++ [source])) next).map
          (Option.map fun way => (rel, next) :: way)).map
            (Option.map fun way => back.reverse ++ way) ++
        pending r source goal maxHops s.stack back)
      (((Depth.advance s next rel).bind fun after => .done (.again after)).play r.answer) := by
  have hlinks := hr.answer_links ((h.reaches_id hstack).follow hrel hto)
  have hmore : maxHops - back.length - 1 = (maxHops - (back.length + 1) - 1) + 1 := by omega
  have hways : (fun way : Way => back.reverse ++ way) ∘ (fun way => (rel, next) :: way) =
      fun way => ((rel, next) :: back).reverse ++ way := by
    funext way
    simp
  rw [play_bind, Depth.advance, GraphDialogue.outgoing, Dialogue.bind, play_ask_of_ok hlinks]
  refine ⟨_, _, (rel, next) :: back, none, rfl, ?_, (List.append_nil _).symm,
    Or.inl (h.advance hstack hrel hto hnew hroom)⟩
  rw [hmore, attempts, List.map_map, Option.map_comp_map, hways]
  rfl

/-- **A turn takes the first of what is pending.** -/
theorem play_turn (h : Walking r source maxHops back s) (hr : r.Answers source) (goal : String) :
    Takes r source goal maxHops s.found (pending r source goal maxHops s.stack back)
      ((turn (some goal) maxHops s).play r.answer) := by
  cases hstack : s.stack with
  | nil =>
    have hframes := h.frames
    rw [hstack, h.onPath] at hframes
    simp at hframes
  | cons frame below =>
    obtain ⟨id, untried⟩ := frame
    unfold turn
    rw [hstack]
    cases untried with
    | nil => exact ⟨[], _, back.tail, none, rfl, rfl, (List.append_nil _).symm, h.retreat hstack⟩
    | cons rel untried =>
      have hrel : rel ∈ r.links id :=
        h.untried _ (by rw [hstack]; exact List.mem_cons_self) rel List.mem_cons_self
      have htried := h.tried hstack
      dsimp only
      rw [play_poll, pending_cons]
      unfold trying
      cases hto : rel.neighborOf id with
      | none => exact htried.takes_none goal
      | some next =>
        have hmembers : s.members.contains next = true ↔ next ∈ back.map Prod.snd ++ [source] := by
          rw [List.contains_iff_mem, h.members, h.onPath]
        have hlength : s.followed.length = back.length := by rw [h.followed, List.length_map]
        dsimp only
        by_cases hpassed : next ∈ back.map Prod.snd ++ [source]
        · rw [if_pos (hmembers.2 hpassed), if_pos hpassed]
          exact htried.takes_none goal
        rw [if_neg (mt hmembers.1 hpassed), if_neg hpassed]
        by_cases hgoal : next = goal
        · have hreached : some goal = some next := congrArg some hgoal.symm
          rw [if_pos hgoal, if_pos hreached]
          exact htried.takes_found hr ((h.reaches_id hstack).follow hrel hto) goal
        rw [if_neg (fun heq => hgoal (Option.some.inj heq).symm), if_neg hgoal, hlength]
        by_cases hroom : back.length + 1 < maxHops
        · rw [if_pos hroom]
          have hnew : next ∉ s.onPath := by rwa [h.onPath]
          exact htried.takes_onward hr rfl hrel hto hnew hroom goal
        · have hnone : maxHops - back.length - 1 = 0 := by omega
          rw [if_neg hroom, hnone, attempts]
          exact htried.takes_none goal

end Walking

/-! ## The whole walk -/

/-- What holds between two turns, with some number of attempts left: what
was found and what is pending are all paths there are. -/
def Going (r : Repository) (source goal : String) (maxHops : ℕ) (paths : List Path) (left : ℕ)
    (s : State) : Prop :=
  ∃ back, (Walking r source maxHops back s ∨ Ended s) ∧
    (pending r source goal maxHops s.stack back).length = left ∧
    s.found ++ (pending r source goal maxHops s.stack back).reduceOption.filterMap
      (r.pathOf source) = paths

theorem filterMap_reduceOption_cons {α β : Type} (f : α → Option β) (attempt : Option α)
    (rest : List (Option α)) :
    (attempt :: rest).reduceOption.filterMap f =
      (attempt.bind f).toList ++ rest.reduceOption.filterMap f := by
  cases attempt with
  | none => rfl
  | some a =>
    rw [List.reduceOption_cons_of_some, List.filterMap_cons]
    cases h : f a <;> simp [h]

/-- **Every turn goes on with one attempt less, or ends with all paths.** -/
theorem Going.play_turn {paths : List Path} {left : ℕ}
    (h : Going r source goal maxHops paths left s) (hr : r.Answers source) :
    (∃ asked s' left', (turn (some goal) maxHops s).play r.answer = ⟨asked, .ok (.again s')⟩ ∧
      Going r source goal maxHops paths left' s' ∧ left' < left) ∨
    ∃ asked found, (turn (some goal) maxHops s).play r.answer = ⟨asked, .ok (.finished found)⟩ ∧
      found = paths := by
  obtain ⟨back, hwalking | hended, rfl, rfl⟩ := h
  · obtain ⟨asked, s', back', attempt, hplay, hpending, hfound, hnext⟩ := hwalking.play_turn hr goal
    refine Or.inl ⟨asked, s', _, hplay, ⟨back', hnext, rfl, ?_⟩, ?_⟩
    · rw [hpending, filterMap_reduceOption_cons, hfound, List.append_assoc]
    · rw [hpending]
      exact Nat.lt_succ_self _
  · refine Or.inr ⟨[], s.found, ?_, ?_⟩
    · rw [turn, hended.stack]
      rfl
    · rw [hended.stack]
      exact (List.append_nil _).symm

/-- A walk that has only begun has everything to try. -/
theorem going_start (hroom : 0 < maxHops) :
    Going r source goal maxHops ((r.ways goal maxHops [source] source).filterMap (r.pathOf source))
      (r.attempts goal maxHops [source] source).length (start source (r.links source)) := by
  have hpending : pending r source goal maxHops [⟨source, r.links source⟩] [] =
      r.attempts goal maxHops [source] source := by
    obtain ⟨n, rfl⟩ : ∃ n, maxHops = n + 1 := ⟨maxHops - 1, by omega⟩
    simp [pending, attempts]
  refine ⟨[], Or.inl ⟨rfl, rfl, rfl, rfl, List.nodup_singleton _, hroom, ?_, ?_,
    Resolved.agrees_nil r⟩, by rw [start, hpending], ?_⟩
  · intro frame hframe rel hrel
    obtain rfl := List.mem_singleton.1 hframe
    exact hrel
  · intro id hid
    obtain rfl := List.mem_singleton.1 hid
    exact .start
  · rw [start, hpending, reduceOption_attempts]
    rfl

end Search.Depth

open Dialogue in
/-- **Depth first finds the paths along all ways, in their order**, but
for those on which an entity is missing. It does so in as many turns as
there are attempts, and one more. -/
theorem Search.play_allPaths_of_lt {r : Repository} {source : String} (hr : r.Answers source)
    {goal : String} {maxHops budget : ℕ}
    (hbudget : (r.attempts goal maxHops [source] source).length < budget) :
    ((allPaths budget source (some goal) maxHops).play r.answer).outcome =
      .ok ((r.waysTo goal maxHops source).filterMap (r.pathOf source)) := by
  unfold allPaths Repository.waysTo
  rw [play_poll]
  by_cases hgoal : source = goal
  · subst hgoal
    rw [if_pos rfl, if_pos rfl, stay, GraphDialogue.entity, Dialogue.bind, Dialogue.bind,
      play_ask_of_ok (hr.answer_entity .start), List.filterMap_cons, r.pathOf_nil]
    cases r.entity? source <;> rfl
  · rw [if_neg (fun heq => hgoal (Option.some.inj heq).symm), if_neg hgoal]
    by_cases hroom : maxHops = 0
    · subst hroom
      rfl
    · rw [if_neg hroom, GraphDialogue.outgoing, Dialogue.bind,
        play_ask_of_ok (hr.answer_links .start)]
      obtain ⟨more, paths, hplay, rfl⟩ := play_iterate
        (fun left _ s => Depth.Going r source goal maxHops _ left s) (fun _ found => found = _)
        (fun _ _ _ h => h.play_turn hr) [] (Depth.going_start (Nat.pos_of_ne_zero hroom)) hbudget
      rw [Dialogue.bind, hplay]

/-- **The budget of a repository's extent is enough for all attempts.** -/
theorem Search.play_allPaths {r : Repository} {source : String} (hr : r.Surveyable source)
    (goal : String) (maxHops : ℕ) :
    ((allPaths (walkBudget r.extent maxHops) source (some goal) maxHops).play r.answer).outcome =
      .ok ((r.waysTo goal maxHops source).filterMap (r.pathOf source)) := by
  have hle := Repository.length_attempts_le hr List.mem_cons_self
    (List.nodup_singleton source) (by simpa using .start) goal maxHops
  have hbudget : (r.extent + 2) ^ min maxHops (r.extent + 2 - [source].length) ≤
      walkBudget r.extent maxHops :=
    Nat.pow_le_pow_right (Nat.succ_pos _) (by simp only [List.length_singleton]; omega)
  exact play_allPaths_of_lt hr.answers (by omega)

end KnowledgeGraph
