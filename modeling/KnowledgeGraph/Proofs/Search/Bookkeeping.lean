import KnowledgeGraph.Graph.Listing
import KnowledgeGraph.Proofs.Dialogue.Ensuring
import KnowledgeGraph.Proofs.Number.Order
import KnowledgeGraph.Proofs.Search.Depth
/-!
# The books of a walk

A walk over all paths keeps four accounts of where it is: its frames, the
ids on the path, the same ids as a set, and the relationships between them.
Each turn changes some of them, and steps back from what a turn long before
did. Whatever is answered, they agree before every turn (`Booked`): the
walk is on a path of frames, or it is over and nothing is left of it
(`ensures_turn`). So they do in every run of the search, from its first
turn to its last (`allPaths_booked`).

It follows that a path found at the goal has one id more than
relationships, so a walk by itself ends in no fault but that of its turns
having run out (`ensures_allPaths`).
-/

namespace KnowledgeGraph

open Dialogue

/-! ## Paths of the right shape -/

namespace Resolved

/-- Entities are found for all ids, or not at all. -/
theorem ensures_entities (ids : List String) (known : Resolved) :
    (entities ids known).Ensures (fun x => ∀ es, x.1 = some es → es.length = ids.length)
      fun _ => False := by
  induction ids generalizing known with
  | nil =>
    rintro es hes
    obtain rfl := Option.some.inj hes
    rfl
  | cons id ids ih =>
    have hentity : (known.entity id).Ensures (fun _ => True) fun _ => False := by
      unfold Resolved.entity
      split
      · trivial
      · exact fun _ => trivial
    refine hentity.bind ?_
    rintro ⟨entity?, known⟩ -
    cases entity? with
    | none => exact fun _ h => nomatch h
    | some e =>
      refine (ih known).bind ?_
      rintro ⟨others?, known⟩ hothers es hes
      obtain ⟨others, rfl, rfl⟩ := Option.map_eq_some_iff.1 hes
      rw [List.length_cons, hothers others rfl, List.length_cons]

/-- **A path is never refused** along one id more than relationships. -/
theorem ensures_path (known : Resolved) {ids : List String} {followed : List Relationship}
    (hlength : ids.length = followed.length + 1) (weight : Binary64) :
    (known.path ids followed weight).Ensures (fun _ => True) fun _ => False := by
  refine (ensures_entities ids known).bind ?_
  rintro ⟨entities?, known⟩ hentities
  cases entities? with
  | none => trivial
  | some es =>
    have hparts : es.length = followed.length + 1 := (hentities es rfl).trans hlength
    dsimp only
    rw [Path.ofParts, dif_pos hparts]
    trivial

end Resolved

namespace Search

theorem ensures_stay (id : Value) {fault : Fault → Prop} :
    (stay id).Ensures (fun _ => True) fault := fun _ => trivial

namespace Depth

/-! ## Agreement -/

/-- Whether relationships lead along some ids, both the latest first. -/
inductive Linked : List String → List Relationship → Prop where
  | single (id : String) : Linked [id] []
  | onward {id next : String} {ids : List String} {rel : Relationship}
      {rels : List Relationship} : rel.neighborOf id = some next → Linked (id :: ids) rels →
      Linked (next :: id :: ids) (rel :: rels)

/-- Whether the accounts of a walk on some path agree: its frames stand for
the ids on the path, none of them twice and all of them in the set, the
relationships lead along these ids, and there is room for one more. -/
structure Booked (maxHops : ℕ) (s : State) : Prop where
  frames : s.stack.map Frame.id = s.onPath
  nodup : s.onPath.Nodup
  members : s.members = s.onPath
  linked : Linked s.onPath s.followed
  room : s.followed.length < maxHops

variable {maxHops : ℕ} {s : State} {id next : String} {ids : List String} {rel : Relationship}
  {rels untried : List Relationship} {below : List Frame} {goal : Option String}

theorem Linked.length_eq (h : Linked ids rels) : ids.length = rels.length + 1 := by
  induction h with
  | single id => rfl
  | onward _ _ ih => rw [List.length_cons, ih, List.length_cons]

/-- From the first id on, each relationship leads from the id of its place
to the next. -/
theorem Linked.getElem?_reverse (h : Linked ids rels) {i : ℕ}
    (hrel : rels.reverse[i]? = some rel) :
    ∃ id next, ids.reverse[i]? = some id ∧ ids.reverse[i + 1]? = some next ∧
      rel.neighborOf id = some next := by
  induction h with
  | single id => simp at hrel
  | @onward id next ids last rels hto hlinked ih =>
    have hlength := hlinked.length_eq
    rw [List.length_cons, Nat.add_right_cancel_iff] at hlength
    rw [List.reverse_cons] at hrel ⊢
    rcases Nat.lt_or_ge i rels.length with hi | hi
    · rw [List.getElem?_append_left (by simpa using hi)] at hrel
      obtain ⟨a, b, ha, hb, hab⟩ := ih hrel
      have hbefore : ∀ {j c}, (id :: ids).reverse[j]? = some c →
          ((id :: ids).reverse ++ [next])[j]? = some c := fun {j c} hj => by
        rw [List.getElem?_append_left (List.getElem?_eq_some_iff.1 hj).1, hj]
      exact ⟨a, b, hbefore ha, hbefore hb, hab⟩
    · -- the last of them leads from the latest id but one
      rw [List.getElem?_append_right (by simpa using hi), List.length_reverse] at hrel
      have hlast : i = rels.length := by
        have := (List.getElem?_eq_some_iff.1 hrel).1
        rw [List.length_singleton] at this
        omega
      subst hlast
      obtain rfl : last = rel := by simpa using hrel
      exact ⟨id, next, by simp [← hlength], by simp [← hlength], hto⟩

/-- A walk that has only begun is at its source. -/
theorem booked_start (hroom : 0 < maxHops) (source : String) (untried : List Relationship) :
    Booked maxHops (start source untried) :=
  ⟨rfl, List.nodup_singleton _, rfl, .single source, hroom⟩

namespace Booked

/-- A walk on some path has a frame. -/
theorem stack_ne_nil (h : Booked maxHops s) : s.stack ≠ [] := by
  intro hstack
  have hlinked := h.linked
  rw [← h.frames, hstack] at hlinked
  cases hlinked

/-- The latest frame is that of the latest id on the path. -/
theorem onPath_eq (h : Booked maxHops s) {frame : Frame} (hstack : s.stack = frame :: below) :
    s.onPath = frame.id :: below.map Frame.id := by
  rw [← h.frames, hstack]
  rfl

/-- To pass over a relationship changes nothing but what is left to try. -/
theorem tried (h : Booked maxHops s) (hstack : s.stack = ⟨id, rel :: untried⟩ :: below) :
    Booked maxHops { s with stack := ⟨id, untried⟩ :: below } := by
  have hframes := h.frames
  rw [hstack] at hframes
  exact ⟨hframes, h.nodup, h.members, h.linked, h.room⟩

/-- **To step back undoes what stepping on did**, or the walk is over. -/
theorem retreat (h : Booked maxHops s) (hstack : s.stack = ⟨id, []⟩ :: below) :
    Booked maxHops (retreat s ⟨id, []⟩ below) ∨ Ended (Depth.retreat s ⟨id, []⟩ below) := by
  have honPath := h.onPath_eq hstack
  have htail : s.onPath.tail = below.map Frame.id := by rw [honPath]; rfl
  have hnodup := h.nodup
  rw [honPath] at hnodup
  have hmembers : s.members.filter (· ≠ id) = s.onPath.tail := by
    rw [h.members, htail, honPath, filter_ne_of_nodup hnodup]
  have hlinked := h.linked
  rw [honPath] at hlinked
  generalize hids : below.map Frame.id = ids at *
  generalize hrels : s.followed = rels at *
  -- the walk is over when the source itself is stepped back from
  cases hlinked with
  | single =>
    refine Or.inr ⟨List.map_eq_nil_iff.1 hids, htail, hmembers.trans htail, ?_⟩
    simp [Depth.retreat, hrels]
  | onward hto hlinked =>
    refine Or.inl ⟨?_, ?_, hmembers, ?_, ?_⟩
    · simp only [Depth.retreat, htail, hids]
    · rw [Depth.retreat, htail]
      exact (List.nodup_cons.1 hnodup).2
    · simp only [Depth.retreat, htail, hrels]
      exact hlinked
    · have hroom := h.room
      simp only [Depth.retreat, hrels, List.tail_cons, List.length_cons] at hroom ⊢
      omega

/-- **To step on** to a new id enters it into every account. -/
theorem advance (h : Booked maxHops s) (hstack : s.stack = ⟨id, untried⟩ :: below)
    (hto : rel.neighborOf id = some next) (hnew : next ∉ s.onPath)
    (hroom : s.followed.length + 1 < maxHops) (onward : List Relationship) :
    Booked maxHops
      { s with
        stack := ⟨next, onward⟩ :: s.stack
        onPath := next :: s.onPath
        members := next :: s.members
        followed := rel :: s.followed } := by
  refine ⟨?_, List.nodup_cons.2 ⟨hnew, h.nodup⟩, ?_, ?_, hroom⟩
  · simp [h.frames]
  · simp [h.members]
  · have hlinked := h.linked
    rw [h.onPath_eq hstack] at hlinked ⊢
    exact .onward hto hlinked

end Booked

/-! ## Turns -/

/-- To keep a path changes no account. -/
theorem ensures_collect (h : Linked s.onPath s.followed) (next : String) (rel : Relationship) :
    (collect s next rel).Ensures
      (fun after => ∃ found resolved, after = { s with found, resolved }) fun _ => False := by
  have hlength : (next :: s.onPath).reverse.length = (rel :: s.followed).reverse.length + 1 := by
    simp [h.length_eq]
  exact (s.resolved.ensures_path hlength .zero).bind fun _ _ => ⟨_, _, rfl⟩

/-- **Before every turn the accounts agree**, or the walk is over and
nothing is left in them; then the turn ends it with what was found. -/
theorem ensures_turn (h : Booked maxHops s ∨ Ended s) :
    (turn goal maxHops s).Ensures
      (Turn.Keeps (fun s => Booked maxHops s ∨ Ended s) fun found => Ended s ∧ s.found = found)
      fun _ => False := by
  rcases h with h | h
  case inr =>
    rw [turn, h.stack]
    exact ⟨h, rfl⟩
  unfold turn
  split
  · exact absurd ‹_› h.stack_ne_nil
  · rename_i id below hstack
    exact h.retreat hstack
  · rename_i id rel untried below hstack
    have htried := h.tried hstack
    dsimp only
    rw [Ensures]
    cases hto : rel.neighborOf id with
    | none => exact Or.inl htried
    | some next =>
      dsimp only
      split
      · exact Or.inl htried
      · rename_i hmem
        have hnew : next ∉ s.onPath :=
          h.members ▸ mt List.contains_iff_mem.2 hmem
        split
        · refine (ensures_collect htried.linked next rel).bind ?_
          rintro after ⟨found, resolved, rfl⟩
          exact Or.inl ⟨htried.frames, htried.nodup, htried.members, htried.linked, htried.room⟩
        · split
          · rename_i hroom
            exact fun onward => Or.inl (htried.advance rfl hto hnew hroom onward)
          · exact Or.inl htried

/-! ## In every run -/

/-- What the accounts of a walk on some path say, from its first id on: the
ids of its frames are those on the path, none of them twice; the set has no
others; and each of the relationships, one less than frames, leads from the
id of its place to the next. -/
structure Accounted (maxHops : ℕ) (s : State) : Prop where
  onPath : s.onPath.reverse = s.stack.reverse.map Frame.id
  nodup : s.onPath.reverse.Nodup
  members : ∀ id, id ∈ s.members ↔ id ∈ s.onPath.reverse
  length : s.followed.length = s.stack.length - 1
  room : s.stack.length - 1 < maxHops
  leads : ∀ i rel, s.followed.reverse[i]? = some rel → ∃ id next,
    s.onPath.reverse[i]? = some id ∧ s.onPath.reverse[i + 1]? = some next ∧
      rel.neighborOf id = some next

theorem Booked.accounted (h : Booked maxHops s) : Accounted maxHops s := by
  have hlength : s.followed.length = s.stack.length - 1 := by
    have hids := h.linked.length_eq
    rw [← h.frames, List.length_map] at hids
    rw [hids, Nat.add_sub_cancel]
  constructor
  case onPath => rw [List.map_reverse, h.frames]
  case nodup => exact List.nodup_reverse.2 h.nodup
  case members =>
    intro id
    rw [h.members, List.mem_reverse]
  case length => exact hlength
  case room => exact hlength ▸ h.room
  case leads => exact fun i rel hrel => h.linked.getElem?_reverse hrel

end Depth

/-- The states of a walk between ends before each of its turns, in a run
that was not ended before its first. -/
def walkHeads (reply : Nat → (q : GraphQuestion) → Except Fault q.Answer) (token : Option Token)
    (budget : ℕ) (source : String) (goal : Option String) (maxHops : ℕ) : List Depth.State :=
  match (poll (GraphDialogue.outgoing (.text source))).run reply token with
  | ⟨asked, .ok untried⟩ =>
    heads reply token (Depth.turn goal maxHops) budget asked.length (Depth.start source untried)
  | ⟨_, .error _⟩ => []

variable {source : String} {goal : Option String} {maxHops : ℕ}
  {reply : Nat → (q : GraphQuestion) → Except Fault q.Answer} {token : Option Token} {budget : ℕ}

theorem forall_mem_walkHeads (hroom : 0 < maxHops) :
    ∀ s ∈ walkHeads reply token budget source goal maxHops,
      Depth.Booked maxHops s ∨ Depth.Ended s := by
  unfold walkHeads
  split
  · exact forall_mem_heads (fun _ => Depth.ensures_turn) _ _
      (Or.inl (Depth.booked_start hroom source _))
  · exact fun _ h => nomatch h

/-- What a walk finds, it has found when its last turn begins. -/
theorem exists_last_walkHead (hgoal : goal ≠ some source) (hroom : 0 < maxHops) {paths : List Path}
    (hrun : ((allPaths budget source goal maxHops).run reply token).outcome = .ok paths) :
    ∃ last call, (walkHeads reply token budget source goal maxHops).getLast? = some last ∧
      ((Depth.turn goal maxHops last).runFrom reply token call).outcome =
        .ok (.finished paths) := by
  have hwalk : allPaths budget source goal maxHops =
      (poll (GraphDialogue.outgoing (.text source))).bind fun untried =>
        iterate (Depth.turn goal maxHops) budget (Depth.start source untried) := by
    rw [allPaths, if_neg hgoal, if_neg hroom.ne']
    rfl
  rw [hwalk, run, runFrom_bind] at hrun
  unfold walkHeads run
  cases hopening : (poll (GraphDialogue.outgoing (.text source))).runFrom reply token 0 with
  | mk asked outcome =>
    rw [hopening] at hrun
    cases outcome with
    | error f => cases hrun
    | ok untried =>
      rw [Nat.zero_add] at hrun
      exact exists_last_head hrun

/-- **The accounts of a walk agree before every turn.** Whatever the
repository answers, and whatever it or the token ends the walk with: as
long as there are frames, they and the path, its ids as a set and its
relationships stand for one and the same path with room for one
relationship more; and once there are none, all the accounts are empty, as
they are when the walk has come to its end. -/
theorem allPaths_accounted (hgoal : goal ≠ some source) (hroom : 1 ≤ maxHops) :
    (∀ s ∈ walkHeads reply token budget source goal maxHops,
      s.stack ≠ [] → Depth.Accounted maxHops s) ∧
    (∀ s ∈ walkHeads reply token budget source goal maxHops, s.stack = [] → Depth.Ended s) ∧
    ∀ paths, ((allPaths budget source goal maxHops).run reply token).outcome = .ok paths →
      ∃ last, (walkHeads reply token budget source goal maxHops).getLast? = some last ∧
        Depth.Ended last ∧ last.found = paths := by
  have hheads : ∀ s ∈ walkHeads reply token budget source goal maxHops,
      Depth.Booked maxHops s ∨ Depth.Ended s := forall_mem_walkHeads hroom
  refine ⟨fun s hs hstack => ?_, fun s hs hstack => ?_, fun paths hrun => ?_⟩
  · exact ((hheads s hs).resolve_right fun hended => hstack hended.stack).accounted
  · exact (hheads s hs).resolve_left fun hbooked => hbooked.stack_ne_nil hstack
  · obtain ⟨last, call, hlast, hfinished⟩ := exists_last_walkHead hgoal hroom hrun
    have hends : Turn.Keeps _ _ (.finished paths) :=
      (Depth.ensures_turn (hheads last (List.mem_of_getLast? hlast))).of_ok hfinished
    exact ⟨last, hlast, hends⟩

/-- A walk from "a" to "d" in a graph with a relationship either way, two
side by side, one that leads back, a loop, and one that does not touch the
id that it is answered for. Its limit cuts the way on from "c" off. -/
theorem allPaths_accounted_cut_off :
    let label : TypeLabel := ⟨"Passage", by decide⟩
    let link (id source target : String) (directed : Bool) : Relationship :=
      ⟨id, label, source, target, [], .zero, directed, none, Binary64.zero_le_zero⟩
    let r : Repository := Listing.repository ⟨[⟨"a", label, [], none⟩, ⟨"d", label, [], none⟩],
      [("a", [link "1" "x" "y" true, link "2" "a" "b" true, link "3" "a" "d" true]),
        ("b", [link "4" "b" "b" true, link "5" "a" "b" false, link "6" "b" "c" true,
          link "7" "b" "c" false]),
        ("c", [link "8" "c" "e" true])]⟩
    let states := walkHeads (fun _ => r.answer) none 20 "a" (some "d") 3
    (states.map fun s => s.onPath.reverse) =
        [["a"], ["a"], ["a", "b"], ["a", "b"], ["a", "b"], ["a", "b", "c"], ["a", "b", "c"],
          ["a", "b"], ["a", "b", "c"], ["a", "b", "c"], ["a", "b"], ["a"], ["a"], []] ∧
      (∀ s ∈ states, s.stack ≠ [] → Depth.Accounted 3 s) ∧
      (∀ s ∈ states, s.stack = [] → Depth.Ended s) ∧
      ∀ paths, ((allPaths 20 "a" (some "d") 3).run (fun _ => r.answer) none).outcome = .ok paths →
        ∃ last, states.getLast? = some last ∧ Depth.Ended last ∧ last.found = paths := by
  intro label link r states
  exact ⟨by decide +kernel, allPaths_accounted (by decide) (by decide)⟩

/-! ## No fault of its own -/

/-- **A walk ends in no fault by itself**, but in that of its turns having
run out. -/
theorem ensures_allPaths (budget : ℕ) (source : String) (goal : Option String) (maxHops : ℕ) :
    (allPaths budget source goal maxHops).Ensures (fun _ => True) (· = .exhausted) := by
  unfold allPaths
  show Ensures _ _ _
  split
  · exact (ensures_stay (.text source)).bind fun _ _ => trivial
  · split
    · trivial
    · rename_i hroom
      intro untried
      have hstart := Depth.booked_start (Nat.pos_of_ne_zero hroom) source untried
      exact Ensures.iterate_of_keeps (fun _ => Depth.ensures_turn) budget (Or.inl hstart)

end Search

end KnowledgeGraph
