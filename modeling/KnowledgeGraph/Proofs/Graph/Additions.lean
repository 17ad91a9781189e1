import KnowledgeGraph.Graph.Store
import Mathlib.Data.List.Sort
/-!
# Stores and what was added to them

A store is read off the list of everything that was tried to be added to
it. A relationship is accepted if entities with the ids of its ends came
before, and of the accepted ones the latest of each id counts. That is
what the edges are, in their order (`Reflects`), and what is asked about
one entity is a part of it (`Reflects.relationshipsOf`): the edges
sighted from either end come together in one list, each once.

The same relationships stand under their ids. As long as both agree, no
edge that is to be taken out is missing and no key leads nowhere.
-/

namespace KnowledgeGraph

/-- What is tried to be added to a store. -/
inductive Addition where
  | entity (e : Entity)
  | relationship (r : Relationship)

/-! ## Reading what was added -/

namespace Addition

/-- The ids of the entities that were added. -/
def introduced (log : List Addition) : List String :=
  log.filterMap fun
    | entity e => some e.id
    | relationship _ => none

/-- The relationships that are accepted where some ids are known
already: both ends have to be known by then. -/
def accepted (known : List String) : List Addition → List Relationship
  | [] => []
  | entity e :: rest => accepted (e.id :: known) rest
  | relationship r :: rest =>
    if r.sourceId ∈ known ∧ r.targetId ∈ known then r :: accepted known rest
    else accepted known rest

end Addition

namespace Relationship

variable {r s : Relationship} {xs : List Relationship}

/-- The last relationship of each id, in the order in which these come. -/
def latest : List Relationship → List Relationship
  | [] => []
  | r :: rest => if rest.any (·.id = r.id) then latest rest else r :: latest rest

/-- Whether a relationship is asked for at an entity: as one that leaves
it or as one that enters it. One without direction does both at either
end. -/
def counts (id : String) (outgoing incoming : Bool) (r : Relationship) : Bool :=
  (outgoing && (r.sourceId = id || (!r.directed && r.targetId = id))) ||
    (incoming && (r.targetId = id || (!r.directed && r.sourceId = id)))

theorem latest_sublist (xs : List Relationship) : (latest xs).Sublist xs := by
  induction xs with
  | nil => exact List.Sublist.slnil
  | cons r rest ih =>
    rw [latest]
    split
    · exact ih.cons r
    · exact ih.cons_cons r

theorem nodup_map_id_latest (xs : List Relationship) : ((latest xs).map Relationship.id).Nodup := by
  induction xs with
  | nil => exact List.nodup_nil
  | cons r rest ih =>
    rw [latest]
    split
    · exact ih
    · next hlast =>
      rw [List.map_cons, List.nodup_cons]
      refine ⟨fun hmem => hlast ?_, ih⟩
      obtain ⟨s, hs, hid⟩ := List.mem_map.1 hmem
      exact List.any_eq_true.2 ⟨s, (latest_sublist rest).subset hs, by simpa using hid⟩

/-- Of one id there is one relationship. -/
theorem eq_of_mem_latest (hr : r ∈ latest xs) (hs : s ∈ latest xs) (h : r.id = s.id) : r = s :=
  List.inj_on_of_nodup_map (nodup_map_id_latest xs) hr hs h

/-- **A relationship that comes last takes the place of the one of its
id**, and moves to the end. -/
theorem latest_concat (xs : List Relationship) (r : Relationship) :
    latest (xs ++ [r]) = (latest xs).filter (fun s => s.id ≠ r.id) ++ [r] := by
  induction xs with
  | nil => simp [latest]
  | cons s rest ih =>
    rw [List.cons_append, latest, latest, ih, List.any_append]
    by_cases hlater : rest.any (·.id = s.id)
    · rw [if_pos hlater, if_pos (by rw [hlater, Bool.true_or])]
    · rw [if_neg hlater, Bool.eq_false_iff.2 hlater, Bool.false_or, List.any_cons, List.any_nil,
        Bool.or_false]
      simp only [decide_eq_true_eq]
      by_cases hid : r.id = s.id
      · rw [if_pos hid, List.filter_cons_of_neg (by simp [hid])]
      · have hkept : decide (s.id ≠ r.id) = true := decide_eq_true fun h => hid h.symm
        rw [if_neg hid, List.filter_cons, if_pos hkept, List.cons_append]

end Relationship

/-! ## Sorting numbers and dropping repetitions -/

/-- Of things in some order the first of each comes before the others
unlike it. -/
theorem pairwise_eraseDups {α : Type} [DecidableEq α] {R : α → α → Prop} {xs : List α}
    (h : xs.Pairwise R) : xs.eraseDups.Pairwise fun a b => R a b ∧ a ≠ b := by
  induction hlength : xs.length using Nat.strong_induction_on generalizing xs with
  | _ n ih =>
    cases xs with
    | nil => simp
    | cons x rest =>
      obtain ⟨hx, hrest⟩ := List.pairwise_cons.1 h
      rw [List.eraseDups_cons, List.pairwise_cons]
      constructor
      · intro y hy
        rw [List.mem_eraseDups, List.mem_filter] at hy
        exact ⟨hx y hy.1, fun heq => by simp [heq] at hy⟩
      · have hshorter : (rest.filter fun y => !y == x).length < n := by
          have := List.length_filter_le (fun y => !y == x) rest
          rw [List.length_cons] at hlength
          omega
        exact ih _ hshorter (hrest.sublist List.filter_sublist) rfl

/-- Looking up what is all there. -/
theorem mapM_ok {α β : Type} {f : α → Except Fault β} {g : α → β} {xs : List α}
    (h : ∀ x ∈ xs, f x = .ok (g x)) : xs.mapM f = .ok (xs.map g) := by
  induction xs with
  | nil => rfl
  | cons x rest ih =>
    rw [List.forall_mem_cons] at h
    rw [List.mapM_cons, h.1, ih h.2]
    rfl

namespace Store

open Relationship (latest counts)

/-! ## The edges at an entity -/

section Edges

variable {edges : List Relationship}

/-- The number of an edge is the place of its key. -/
theorem idxOf_id_of_mem_zipIdx (h : (edges.map Relationship.id).Nodup) {edge : Relationship × ℕ}
    (hedge : edge ∈ edges.zipIdx) : (edges.map Relationship.id).idxOf edge.1.id = edge.2 := by
  rw [List.mem_zipIdx_iff_getElem?] at hedge
  obtain ⟨hlt, hget⟩ := List.getElem?_eq_some_iff.1 hedge
  have hlt' : edge.2 < (edges.map Relationship.id).length := by rwa [List.length_map]
  have hkey : (edges.map Relationship.id)[edge.2] = edge.1.id := by rw [List.getElem_map, hget]
  rw [← hkey]
  exact h.idxOf_getElem edge.2 hlt'

theorem mem_of_mem_zipIdx {edge : Relationship × ℕ} (h : edge ∈ edges.zipIdx) : edge.1 ∈ edges := by
  rw [List.mem_zipIdx_iff_getElem?] at h
  exact List.mem_of_getElem? h

theorem exists_mem_zipIdx_iff {r : Relationship} : (∃ n, (r, n) ∈ edges.zipIdx) ↔ r ∈ edges := by
  rw [List.mem_iff_getElem?]
  exact exists_congr fun n => List.mem_zipIdx_iff_getElem? (x := (r, n))

/-- The keys of edges stand in their places. -/
theorem pairwise_idxOf_filter (h : (edges.map Relationship.id).Nodup)
    (keep : Relationship → Bool) :
    ((edges.filter keep).map Relationship.id).Pairwise fun a b =>
      (edges.map Relationship.id).idxOf a < (edges.map Relationship.id).idxOf b := by
  have hall : (edges.map Relationship.id).Pairwise fun a b =>
      (edges.map Relationship.id).idxOf a < (edges.map Relationship.id).idxOf b := by
    rw [List.pairwise_iff_getElem]
    intro i j hi hj hij
    rwa [h.idxOf_getElem i hi, h.idxOf_getElem j hj]
  exact hall.sublist (List.filter_sublist.map Relationship.id)

/-- **Sightings put in order name each edge once.** However often an edge
is sighted, its key comes once, and the keys come in the order of the
edges. -/
theorem eraseDups_sorted_keys (h : (edges.map Relationship.id).Nodup)
    (keep : Relationship → Bool) (sighted : List (Relationship × ℕ))
    (hsighted : ∀ edge, edge ∈ sighted ↔ edge ∈ edges.zipIdx ∧ keep edge.1 = true) :
    ((sighted.mergeSort fun a b => a.2 ≤ b.2).map (·.1.id)).eraseDups =
      (edges.filter keep).map Relationship.id := by
  let place := (edges.map Relationship.id).idxOf
  have hplace : ∀ edge ∈ sighted, place edge.1.id = edge.2 := fun edge hedge =>
    idxOf_id_of_mem_zipIdx h ((hsighted edge).1 hedge).1
  have hsorted : ((sighted.mergeSort fun a b => a.2 ≤ b.2).map (·.1.id)).Pairwise
      fun a b => place a ≤ place b := by
    have hnumbers : (sighted.mergeSort fun a b => a.2 ≤ b.2).Pairwise
        fun a b => decide (a.2 ≤ b.2) = true :=
      List.pairwise_mergeSort (fun a b c => by simpa using Nat.le_trans)
        (fun a b => by simpa using Nat.le_total _ _) sighted
    rw [List.pairwise_map]
    refine hnumbers.imp_of_mem fun {a b} ha hb hab => ?_
    rw [List.mem_mergeSort] at ha hb
    rw [hplace a ha, hplace b hb]
    simpa using hab
  have hmem : ∀ key, key ∈ ((sighted.mergeSort fun a b => a.2 ≤ b.2).map (·.1.id)).eraseDups ↔
      key ∈ (edges.filter keep).map Relationship.id := by
    intro key
    rw [List.mem_eraseDups, List.mem_map, List.mem_map]
    constructor
    · rintro ⟨edge, hedge, rfl⟩
      rw [List.mem_mergeSort, hsighted] at hedge
      exact ⟨edge.1, List.mem_filter.2 ⟨mem_of_mem_zipIdx hedge.1, hedge.2⟩, rfl⟩
    · rintro ⟨r, hr, rfl⟩
      rw [List.mem_filter] at hr
      obtain ⟨n, hn⟩ := exists_mem_zipIdx_iff.2 hr.1
      exact ⟨(r, n), List.mem_mergeSort.2 ((hsighted _).2 ⟨hn, hr.2⟩), rfl⟩
  -- two lists in the same strict order with the same members
  have hstrict : Std.Antisymm fun a b : String => place a < place b :=
    ⟨fun a b hab hba => absurd hba (Nat.lt_asymm hab)⟩
  have hirrefl : Std.Irrefl fun a b : String => place a < place b := ⟨fun a => Nat.lt_irrefl _⟩
  refine List.Pairwise.eq_of_mem_iff ?_ (pairwise_idxOf_filter h keep) hmem
  refine (pairwise_eraseDups hsorted).imp_of_mem fun {a b} ha hb hab => ?_
  refine lt_of_le_of_ne hab.1 fun heq => hab.2 ?_
  rw [hmem, List.mem_map] at ha
  obtain ⟨r, hr, rfl⟩ := ha
  have hin : r.id ∈ edges.map Relationship.id := List.mem_map_of_mem (List.mem_filter.1 hr).1
  exact (List.idxOf_inj hin).1 heq

end Edges

/-! ## A store reflects what was added -/

/-- The store after something was tried to be added. What is refused
leaves it as it was. -/
def add (s : Store) : Addition → Store
  | .entity e => s.addEntity e
  | .relationship r =>
    match s.addRelationship r with
    | .ok s' => s'
    | .error _ => s

/-- The store after some additions to an empty one. -/
def after (log : List Addition) : Store := log.foldl add empty

/-- What a store keeps of what was added: the ids that are known, and of
the accepted relationships the latest of each id, once as edges and once
under their ids. -/
structure Reflects (s : Store) (known : List String) (past : List Relationship) : Prop where
  has_iff : ∀ id, s.has id = true ↔ id ∈ known
  edges_eq : s.edges = latest past
  mem_relationships : ∀ r, r ∈ s.relationships ↔ r ∈ latest past
  nodup_ids : (s.relationships.map Relationship.id).Nodup
  ends_known : ∀ r ∈ past, r.sourceId ∈ known ∧ r.targetId ∈ known

variable {s : Store} {known : List String} {past : List Relationship}

theorem reflects_empty : Reflects empty [] [] where
  has_iff id := by simp [has, entity?, empty]
  edges_eq := rfl
  mem_relationships r := by simp [empty, latest]
  nodup_ids := List.nodup_nil
  ends_known r hr := by cases hr

theorem Reflects.relationship?_eq_some_iff (h : Reflects s known past) {id : String}
    {r : Relationship} : s.relationship? id = some r ↔ r ∈ latest past ∧ r.id = id := by
  rw [relationship?]
  constructor
  · intro hfound
    exact ⟨(h.mem_relationships r).1 (List.mem_of_find?_eq_some hfound),
      by simpa using List.find?_some hfound⟩
  · rintro ⟨hr, rfl⟩
    have hr' := (h.mem_relationships r).2 hr
    cases hfound : s.relationships.find? fun other => other.id = r.id with
    | none => simpa using List.find?_eq_none.1 hfound r hr'
    | some other =>
      have hid : other.id = r.id := by simpa using List.find?_some hfound
      rw [List.inj_on_of_nodup_map h.nodup_ids (List.mem_of_find?_eq_some hfound) hr' hid]

/-- The key of an edge leads back to it. -/
theorem Reflects.relationshipOfKey (h : Reflects s known past) {r : Relationship}
    (hr : r ∈ latest past) : s.relationshipOfKey r.id = .ok r := by
  rw [Store.relationshipOfKey, h.relationship?_eq_some_iff.2 ⟨hr, rfl⟩]
  rfl

/-! ### Adding an entity -/

theorem has_addEntity (s : Store) (e : Entity) (id : String) :
    (s.addEntity e).has id = true ↔ id = e.id ∨ s.has id = true := by
  have hkeys : ∀ s : Store, s.has id = true ↔ id ∈ s.entities.map Entity.id := fun s => by
    simp [has, entity?, List.find?_isSome]
  rw [hkeys, hkeys]
  exact Keyed.mem_keys_put Entity.id e s.entities id

theorem Reflects.addEntity (h : Reflects s known past) (e : Entity) :
    Reflects (s.addEntity e) (e.id :: known) past where
  has_iff id := by rw [has_addEntity, h.has_iff, List.mem_cons]
  edges_eq := h.edges_eq
  mem_relationships := h.mem_relationships
  nodup_ids := h.nodup_ids
  ends_known r hr :=
    ⟨List.mem_cons_of_mem _ (h.ends_known r hr).1, List.mem_cons_of_mem _ (h.ends_known r hr).2⟩

/-! ### Adding a relationship -/

/-- Among the latest relationships of each id an edge is known by its key
alone. -/
theorem withoutEdge_latest {r : Relationship} (hr : r ∈ latest past) :
    withoutEdge r (latest past) = (latest past).filter fun edge => edge.id ≠ r.id := by
  unfold withoutEdge
  refine List.filter_congr fun edge hedge => ?_
  by_cases hid : edge.id = r.id
  · rw [Relationship.eq_of_mem_latest hedge hr hid]
    simp [Relationship.sameLink]
  · simp [Relationship.sameLink, hid]

/-- An edge is not among those of other keys. -/
theorem withoutEdge_of_id_ne {r : Relationship} {edges : List Relationship}
    (h : ∀ edge ∈ edges, edge.id ≠ r.id) : withoutEdge r edges = edges := by
  unfold withoutEdge
  refine List.filter_eq_self.2 fun edge hedge => ?_
  simp [Relationship.sameLink, h edge hedge]

/-- **The edge of an earlier relationship is always there to be taken
out**, and then the new edge is the only one of its key. -/
theorem Reflects.edges_of_add (h : Reflects s known past) (r : Relationship) :
    ∃ edges, s.edgesWithout r.id = .ok edges ∧ addEdge r edges = latest (past ++ [r]) := by
  refine ⟨(latest past).filter fun edge => edge.id ≠ r.id, ?_, ?_⟩
  · rw [edgesWithout]
    cases hprevious : s.relationship? r.id with
    | none =>
      rw [h.edges_eq]
      refine congrArg Except.ok (List.filter_eq_self.2 fun edge hedge => ?_).symm
      have hne : edge.id ≠ r.id := fun hid => by
        rw [h.relationship?_eq_some_iff.2 ⟨hedge, hid⟩] at hprevious
        cases hprevious
      simpa using hne
    | some previous =>
      obtain ⟨hmem, hid⟩ := h.relationship?_eq_some_iff.1 hprevious
      have hany : s.edges.any (·.sameLink previous) = true :=
        List.any_eq_true.2 ⟨previous, h.edges_eq ▸ hmem, by simp [Relationship.sameLink]⟩
      dsimp only
      rw [removeEdge, if_pos hany, h.edges_eq, withoutEdge_latest hmem, hid]
  · have hothers : ∀ edge ∈ (latest past).filter (fun edge => edge.id ≠ r.id), edge.id ≠ r.id :=
      fun edge hedge => by simpa using (List.mem_filter.1 hedge).2
    rw [addEdge, withoutEdge_of_id_ne hothers, Relationship.latest_concat]

/-- A relationship between known ends is added. -/
theorem Reflects.addRelationship (h : Reflects s known past) {r : Relationship}
    (hsource : r.sourceId ∈ known) (htarget : r.targetId ∈ known) :
    ∃ s', s.addRelationship r = .ok s' ∧ Reflects s' known (past ++ [r]) := by
  obtain ⟨edges, hedges, hadded⟩ := h.edges_of_add r
  refine ⟨{ s with relationships := Keyed.put Relationship.id r s.relationships,
                   edges := addEdge r edges }, ?_, ?_⟩
  · rw [Store.addRelationship, (h.has_iff _).2 hsource, (h.has_iff _).2 htarget, hedges]
    rfl
  · refine ⟨h.has_iff, hadded, fun other => ?_, Keyed.nodup_put Relationship.id r h.nodup_ids, ?_⟩
    · rw [Keyed.mem_put Relationship.id r h.nodup_ids, h.mem_relationships,
        Relationship.latest_concat, List.mem_append, List.mem_filter, List.mem_singleton, or_comm]
      simp only [ne_eq, decide_not, Bool.not_eq_true', decide_eq_false_iff_not]
    · intro other hother
      rcases List.mem_append.1 hother with hold | hnew
      · exact h.ends_known other hold
      · obtain rfl := List.mem_singleton.1 hnew
        exact ⟨hsource, htarget⟩

/-- One with an unknown end is refused as an argument, the source looked
at first. -/
theorem Reflects.addRelationship_of_unknown (h : Reflects s known past) {r : Relationship}
    (hends : ¬ (r.sourceId ∈ known ∧ r.targetId ∈ known)) :
    ∃ id, id ∉ known ∧ s.addRelationship r = .error (unknownEnd r id) := by
  rw [Store.addRelationship]
  by_cases hsource : r.sourceId ∈ known
  · have htarget : r.targetId ∉ known := fun ht => hends ⟨hsource, ht⟩
    have hmissing : s.has r.targetId = false :=
      Bool.eq_false_iff.2 fun ht => htarget ((h.has_iff _).1 ht)
    exact ⟨r.targetId, htarget, by rw [(h.has_iff _).2 hsource, hmissing]; rfl⟩
  · have hmissing : s.has r.sourceId = false :=
      Bool.eq_false_iff.2 fun hs => hsource ((h.has_iff _).1 hs)
    exact ⟨r.sourceId, hsource, by rw [hmissing]; rfl⟩

/-! ### Any additions -/

/-- **A store goes on reflecting what is added to it.** -/
theorem Reflects.foldl_add (h : Reflects s known past) (log : List Addition) :
    Reflects (log.foldl add s) ((Addition.introduced log).reverse ++ known)
      (past ++ Addition.accepted known log) := by
  induction log generalizing s known past with
  | nil => simpa [Addition.introduced, Addition.accepted] using h
  | cons a rest ih =>
    rw [List.foldl_cons]
    cases a with
    | entity e =>
      rw [Store.add]
      simpa [Addition.introduced, Addition.accepted] using ih (h.addEntity e)
    | relationship r =>
      rw [Addition.accepted]
      by_cases hends : r.sourceId ∈ known ∧ r.targetId ∈ known
      · obtain ⟨s', hadd, hs'⟩ := h.addRelationship hends.1 hends.2
        rw [if_pos hends, Store.add, hadd]
        simpa [Addition.introduced] using ih hs'
      · obtain ⟨id, -, hadd⟩ := h.addRelationship_of_unknown hends
        rw [if_neg hends, Store.add, hadd]
        simpa [Addition.introduced] using ih h

theorem reflects_after (log : List Addition) :
    Reflects (after log) (Addition.introduced log).reverse (Addition.accepted [] log) := by
  have h := reflects_empty.foldl_add log
  rwa [List.append_nil, List.nil_append] at h

/-! ## Asking about one entity -/

theorem Reflects.edgesAt (h : Reflects s known past) (hasEnd : Relationship → Bool) :
    s.edgesAt hasEnd = .ok ((latest past).zipIdx.filter fun edge => hasEnd edge.1) := by
  rw [Store.edgesAt, h.edges_eq, mapM_ok (g := fun edge => edge), List.map_id']
  intro edge hedge
  rw [h.relationshipOfKey (mem_of_mem_zipIdx (List.mem_filter.1 hedge).1)]
  rfl

/-- Nothing has an end at what was never added. -/
theorem Reflects.filter_counts_of_unknown (h : Reflects s known past) {id : String}
    (hid : id ∉ known) (outgoing incoming : Bool) :
    (latest past).filter (counts id outgoing incoming) = [] := by
  refine List.filter_eq_nil_iff.2 fun r hr hcounts => ?_
  obtain ⟨hsource, htarget⟩ := h.ends_known r ((Relationship.latest_sublist past).subset hr)
  have hs : r.sourceId ≠ id := fun e => hid (e ▸ hsource)
  have ht : r.targetId ≠ id := fun e => hid (e ▸ htarget)
  simp [counts, hs, ht] at hcounts

/-- **What is asked about an entity is what counts at it** among the
latest relationships of each id, in their order. -/
theorem Reflects.relationshipsOf (h : Reflects s known past) (id : String)
    (outgoing incoming : Bool) :
    s.relationshipsOf id outgoing incoming =
      .ok ((latest past).filter (counts id outgoing incoming)) := by
  rw [Store.relationshipsOf]
  cases hid : s.has id with
  | false =>
    have hunknown : id ∉ known := fun hk => by simp [(h.has_iff id).2 hk] at hid
    rw [h.filter_counts_of_unknown hunknown]
    rfl
  | true =>
    have hkeys := eraseDups_sorted_keys (Relationship.nodup_map_id_latest past)
      (counts id outgoing incoming)
      (((latest past).zipIdx.filter fun edge => decide (edge.1.sourceId = id)).filter
          (fun edge => outgoing || (incoming && !edge.1.directed)) ++
        ((latest past).zipIdx.filter fun edge => decide (edge.1.targetId = id)).filter
          (fun edge => incoming || (outgoing && !edge.1.directed)))
      (fun edge => by
        simp only [List.mem_append, List.mem_filter, counts]
        grind)
    have hfound : ∀ r ∈ (latest past).filter (counts id outgoing incoming),
        (s.relationshipOfKey ∘ Relationship.id) r = .ok r := fun r hr =>
      h.relationshipOfKey (List.mem_filter.1 hr).1
    rw [h.edgesAt, h.edgesAt, if_neg (by simp)]
    dsimp only [bind, Except.bind]
    rw [hkeys, List.mapM_map, mapM_ok hfound, List.map_id']

/-- **A store answers from what was added to it.** A relationship is
refused, as an argument, exactly if one of its ends was never added, and
then nothing shows later that it was tried. The relationships of an
entity are those that count at it among the accepted ones, the latest of
each id, in the order in which these were accepted. -/
theorem answer_relationships_after (log : List Addition) :
    (∀ r : Relationship,
      let known :=
        r.sourceId ∈ Addition.introduced log ∧ r.targetId ∈ Addition.introduced log
      ((∃ s, (after log).addRelationship r = .ok s) ↔ known) ∧
        ((∃ message, (after log).addRelationship r = .error (.argument "relationship" message)) ↔
          ¬ known) ∧
        (¬ known → ∀ later, after (log ++ .relationship r :: later) = after (log ++ later))) ∧
      ∀ (id : String) (outgoing incoming : Bool),
        let found := (latest (Addition.accepted [] log)).filter (counts id outgoing incoming)
        (after log).repository.answer
            (.relationships (.text id) (.bool outgoing) (.bool incoming)) = .ok found ∧
          (found.map Relationship.id).Nodup ∧ (id ∉ Addition.introduced log → found = []) := by
  have h := reflects_after log
  refine ⟨fun r => ?_, fun id outgoing incoming => ⟨?_, ?_, fun hid => ?_⟩⟩
  · intro known
    by_cases hends : known
    · obtain ⟨s, hadd, -⟩ :=
        h.addRelationship (List.mem_reverse.2 hends.1) (List.mem_reverse.2 hends.2)
      rw [hadd]
      refine ⟨⟨fun _ => hends, fun _ => ⟨s, rfl⟩⟩, ?_, fun hnot => absurd hends hnot⟩
      exact ⟨fun ⟨_, herror⟩ => (by cases herror), fun hnot => absurd hends hnot⟩
    · have hunknown : ¬ (r.sourceId ∈ (Addition.introduced log).reverse ∧
          r.targetId ∈ (Addition.introduced log).reverse) := by
        rwa [List.mem_reverse, List.mem_reverse]
      obtain ⟨id, -, hadd⟩ := h.addRelationship_of_unknown hunknown
      have hstays : (after log).add (.relationship r) = after log := by rw [Store.add, hadd]
      rw [hadd]
      refine ⟨⟨fun ⟨_, hok⟩ => (by cases hok), fun hknown => absurd hknown hends⟩,
        ⟨fun _ => hends, fun _ => ⟨_, rfl⟩⟩, fun _ later => ?_⟩
      rw [after, List.foldl_append, List.foldl_cons]
      change later.foldl add ((after log).add (.relationship r)) = _
      rw [hstays, after, after, ← List.foldl_append]
  · have hfound := h.relationshipsOf id outgoing incoming
    cases outgoing <;> cases incoming <;> exact hfound
  · exact (Relationship.nodup_map_id_latest _).sublist (List.filter_sublist.map _)
  · refine h.filter_counts_of_unknown ?_ outgoing incoming
    rwa [List.mem_reverse]

end Store

end KnowledgeGraph
