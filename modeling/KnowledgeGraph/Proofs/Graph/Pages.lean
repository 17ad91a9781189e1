import KnowledgeGraph.Proofs.Dialogue.Playing
import KnowledgeGraph.Proofs.Graph.Additions
import Mathlib.Data.List.Induction
/-!
# Pages of a store

A store keeps the latest entity of each id and the latest relationship of
each id, both in the order in which the ids were added first
(`Store.entities_after`, `Store.relationships_after`). That is the order
in which queries count, and no page changes it: page after page, the
entities are those that are found at once, none of them left out or
given twice (`Store.pages_query`).
-/

namespace KnowledgeGraph

/-! ## The latest of each key -/

namespace Keyed

variable {α κ : Type} [DecidableEq κ] {key : α → κ} {items : List α} {x : α}

/-- The last item of each key, in the order in which the keys first come. -/
def latest (key : α → κ) (items : List α) : List α :=
  (items.map key).eraseDups.filterMap fun k => (items.filter fun x => key x = k).getLast?

theorem ofList_concat (key : α → κ) (items : List α) (item : α) :
    ofList key (items ++ [item]) = put key item (ofList key items) :=
  List.foldl_concat ..

/-- A new key comes to the end, and any other has its place. -/
theorem map_key_put (key : α → κ) (item : α) (xs : List α) :
    (put key item xs).map key =
      if key item ∈ xs.map key then xs.map key else xs.map key ++ [key item] := by
  induction xs with
  | nil => rfl
  | cons x rest ih =>
    by_cases h : key x = key item
    · simp [put, h]
    · have hne : key item ≠ key x := fun heq => h heq.symm
      rw [put, if_neg h, List.map_cons, ih, List.map_cons]
      simp only [List.mem_cons, hne, false_or]
      split <;> rfl

/-- Without repetitions, what comes last counts only if it is new. -/
theorem eraseDups_concat (ks : List κ) (k : κ) :
    (ks ++ [k]).eraseDups = if k ∈ ks then ks.eraseDups else ks.eraseDups ++ [k] := by
  rw [List.eraseDups_append, List.removeAll]
  by_cases h : k ∈ ks
  · rw [if_pos h, List.filter_cons_of_neg (by simp [h])]
    exact List.append_nil _
  · rw [if_neg h, List.filter_cons_of_pos (by simp [h])]
    rfl

/-- Keys stand in the order in which they were put first. -/
theorem map_key_ofList (key : α → κ) (items : List α) :
    (ofList key items).map key = (items.map key).eraseDups := by
  induction items using List.reverseRecOn with
  | nil => rfl
  | append_singleton items item ih =>
    rw [ofList_concat, map_key_put, ih, List.map_append, List.map_singleton, eraseDups_concat]
    simp only [List.mem_eraseDups]

/-- What was put last under a key stands there. -/
theorem getLast?_of_mem_ofList (h : x ∈ ofList key items) :
    (items.filter fun y => key y = key x).getLast? = some x := by
  induction items using List.reverseRecOn with
  | nil => cases h
  | append_singleton items item ih =>
    rw [ofList_concat, mem_put key item (nodup_ofList key items)] at h
    rw [List.filter_append]
    rcases h with rfl | ⟨hold, hne⟩
    · simp
    · have hother : ([item].filter fun y => key y = key x) = [] := by
        simpa using fun heq : key item = key x => hne heq.symm
      rw [hother, List.append_nil]
      exact ih hold

/-- **What was put one after the other comes to the latest of each key.** -/
theorem ofList_eq_latest (key : α → κ) (items : List α) : ofList key items = latest key items := by
  have hlookup : ∀ x ∈ ofList key items,
      (items.filter fun y => key y = key x).getLast? = some x := fun _ => getLast?_of_mem_ofList
  calc ofList key items
      = (ofList key items).filterMap some := List.filterMap_some.symm
    _ = (ofList key items).filterMap fun x => (items.filter fun y => key y = key x).getLast? :=
      List.filterMap_congr fun x hx => (hlookup x hx).symm
    _ = ((ofList key items).map key).filterMap
          fun k => (items.filter fun y => key y = k).getLast? := by rw [List.filterMap_map]; rfl
    _ = latest key items := by rw [map_key_ofList, latest]

theorem nodup_latest (key : α → κ) (items : List α) : ((latest key items).map key).Nodup := by
  rw [← ofList_eq_latest]
  exact nodup_ofList key items

end Keyed

/-! ## What a store keeps -/

namespace Addition

/-- The entities that were added. -/
def entities (log : List Addition) : List Entity :=
  log.filterMap fun
    | entity e => some e
    | relationship _ => none

end Addition

namespace Store

variable {s s' : Store} {known : List String} {past : List Relationship}

/-- To add a relationship changes no entity, and puts it in the place of the
one of its id. -/
theorem kept_of_addRelationship {r : Relationship} (h : s.addRelationship r = .ok s') :
    s'.entities = s.entities ∧
      s'.relationships = Keyed.put Relationship.id r s.relationships := by
  unfold addRelationship at h
  split at h
  · cases h
  · split at h
    · cases h
    · cases hedges : s.edgesWithout r.id with
      | error fault =>
        rw [hedges] at h
        cases h
      | ok edges =>
        rw [hedges] at h
        obtain rfl := Except.ok.inj h
        exact ⟨rfl, rfl⟩

/-- What a store keeps is put one after the other. -/
theorem Reflects.kept_of_foldl_add (h : Reflects s known past) (log : List Addition) :
    (log.foldl add s).entities =
        (Addition.entities log).foldl (fun kept e => Keyed.put Entity.id e kept) s.entities ∧
      (log.foldl add s).relationships = (Addition.accepted known log).foldl
        (fun kept r => Keyed.put Relationship.id r kept) s.relationships := by
  induction log generalizing s known past with
  | nil => exact ⟨rfl, rfl⟩
  | cons a rest ih =>
    rw [List.foldl_cons]
    cases a with
    | entity e => exact ih (h.addEntity e)
    | relationship r =>
      rw [Addition.accepted]
      by_cases hends : r.sourceId ∈ known ∧ r.targetId ∈ known
      · obtain ⟨s', hadd, hs'⟩ := h.addRelationship hends.1 hends.2
        obtain ⟨hentities, hrelationships⟩ := kept_of_addRelationship hadd
        rw [if_pos hends, Store.add, hadd, List.foldl_cons, ← hrelationships, Addition.entities,
          List.filterMap_cons, ← hentities]
        exact ih hs'
      · obtain ⟨id, -, hadd⟩ := h.addRelationship_of_unknown hends
        rw [if_neg hends, Store.add, hadd]
        exact ih h

/-- **A store keeps the latest entity of each id**, in the order in which
ids were added first. -/
theorem entities_after (log : List Addition) :
    (after log).entities = Keyed.latest Entity.id (Addition.entities log) := by
  rw [← Keyed.ofList_eq_latest]
  exact (reflects_empty.kept_of_foldl_add log).1

/-- And so it is with relationships, of those that are accepted. -/
theorem relationships_after (log : List Addition) :
    (after log).relationships =
      Keyed.latest Relationship.id (Addition.accepted [] log) := by
  rw [← Keyed.ofList_eq_latest]
  exact (reflects_empty.kept_of_foldl_add log).2

end Store

/-! ## Pages -/

namespace Query

/-- Whether an entity is of the type asked for, if one is, and its
properties meet every filter. -/
def Seeks (q : Query) (e : Entity) : Prop :=
  (∀ type ∈ q.entityType, e.type.text = type) ∧ ∀ filter ∈ q.filters, e.properties.meet filter

instance (q : Query) (e : Entity) : Decidable (q.Seeks e) := inferInstanceAs (Decidable (_ ∧ _))

/-- A query for all that it seeks at once. -/
def unpaged (q : Query) : Query := { q with pageSize := 0, skip := 0 }

/-- A query for one of the pages of some size, counted from zero. -/
def paged (q : Query) (size i : ℕ) : Query := { q with pageSize := size, skip := i * size }

end Query

namespace Store

variable {q : Query} {e : Entity}

theorem selects_iff : selects q e = true ↔ q.Seeks e := by
  unfold selects Query.Seeks
  rw [Bool.and_eq_true, List.all_eq_true]
  refine and_congr_left' ?_
  cases q.entityType with
  | none => simp
  | some type => simp [eq_comm]

/-- What a query is answered with, whatever its page. -/
theorem selected_after (log : List Addition) (q : Query) :
    (after log).selected q =
      (Keyed.latest Entity.id (Addition.entities log)).filter fun e => q.Seeks e := by
  rw [selected, entities_after]
  exact List.filter_congr fun e _ => Bool.eq_iff_iff.2 (by simp [selects_iff])

/-- Pages put one after the other come to a beginning of the list. -/
theorem flatMap_pages {α : Type} (items : List α) (size n : ℕ) :
    (List.range n).flatMap (fun i => (items.drop (i * size)).take size) =
      items.take (n * size) := by
  induction n with
  | zero => simp
  | succ n ih =>
    rw [List.range_succ, List.flatMap_append, ih, Nat.succ_mul, List.take_add]
    simp

theorem outcome_query (s : Store) (q : Query) :
    (s.repository.run none (GraphDialogue.query q)).outcome = .ok (s.query q) := by
  rw [Repository.run_none]
  rfl

theorem entities_query_unpaged (s : Store) (q : Query) :
    (s.query q.unpaged).entities = s.selected q := rfl

theorem entities_query_paged (s : Store) (q : Query) {size : ℕ} (hsize : 0 < size) (i : ℕ) :
    (s.query (q.paged size i)).entities = ((s.selected q).drop (i * size)).take size :=
  if_pos hsize

/-- **Pages leave nothing out and repeat nothing.** All at once, a query is
answered with the latest entities of each id that it seeks, in the order
in which ids were added first. However large its pages are, one after the
other they hold the same, as soon as there are enough of them; each counts
all that is found, and comes with the latest relationships of each id
whose ends are both on the page. -/
theorem pages_query (log : List Addition) (q : Query) {size : ℕ} (hsize : 0 < size) :
    let r := (after log).repository
    let found := (Keyed.latest Entity.id (Addition.entities log)).filter fun e => q.Seeks e
    (found.map Entity.id).Nodup ∧ ∃ (whole : QueryResult) (page : ℕ → QueryResult),
      (r.run none (GraphDialogue.query q.unpaged)).outcome = .ok whole ∧
      (∀ i, (r.run none (GraphDialogue.query (q.paged size i))).outcome = .ok (page i)) ∧
      whole.entities = found ∧
      (∀ n, found.length ≤ n * size →
        (List.range n).flatMap (fun i => (page i).entities) = whole.entities) ∧
      ∀ i, (page i).entities.length ≤ size ∧ (page i).totalCount = found.length ∧
        ((page i).relationships.map Relationship.id).Nodup ∧
        (page i).relationships =
          (Keyed.latest Relationship.id (Addition.accepted [] log)).filter fun rel =>
            rel.sourceId ∈ (page i).entities.map Entity.id ∧
              rel.targetId ∈ (page i).entities.map Entity.id := by
  intro r found
  have hfound : (after log).selected q = found := selected_after log q
  have hids : ((after log).relationships.map Relationship.id).Nodup := (reflects_after log).nodup_ids
  have hpage : ∀ i, ((after log).query (q.paged size i)).entities =
      (found.drop (i * size)).take size := fun i => hfound ▸ entities_query_paged _ q hsize i
  refine ⟨(Keyed.nodup_latest _ _).sublist (List.filter_sublist.map _),
    (after log).query q.unpaged, fun i => (after log).query (q.paged size i),
    outcome_query _ _, fun i => outcome_query _ _, hfound, fun n hn => ?_, fun i => ⟨?_, ?_, ?_, ?_⟩⟩
  · rw [entities_query_unpaged, hfound]
    simp only [hpage]
    rw [flatMap_pages, List.take_of_length_le hn]
  · rw [hpage]
    exact List.length_take_le _ _
  · exact congrArg (fun items : List Entity => (items.length : ℤ)) hfound
  · exact hids.sublist (List.filter_sublist.map _)
  · rw [← relationships_after]
    refine List.filter_congr fun rel _ => ?_
    rw [Bool.decide_and, ← List.elem_eq_mem, ← List.elem_eq_mem]
    rfl

/-- Entities that are added anew and one that comes to be of another type,
relationships between them, one of which is moved and one refused, and a
query that finds the first, the third and the last on two pages. -/
theorem pages_query_renewed :
    let person : TypeLabel := ⟨"Person", by decide⟩
    let node (id : String) (type : TypeLabel) (age : Int) : Addition :=
      .entity ⟨id, type, [("age", .int age)], none⟩
    let link (id source target : String) : Addition :=
      .relationship ⟨id, person, source, target, [], Relationship.defaultWeight.1, true, none,
        Relationship.defaultWeight.2⟩
    let log := [node "a" person 20, node "b" person 30, link "1" "a" "c", node "c" person 30,
      link "2" "a" "b", link "3" "c" "a", node "d" person 30, link "2" "a" "c",
      node "a" person 30, node "b" ⟨"Robot", by decide⟩ 30]
    let q : Query :=
      ⟨some "Person", [("age", .int 30)], 100, 0, Query.defaultTimeout, none⟩
    let r := (after log).repository
    let found := (Keyed.latest Entity.id (Addition.entities log)).filter fun e => q.Seeks e
    0 < 2 ∧ found.map Entity.id = ["a", "c", "d"] ∧
    (found.map Entity.id).Nodup ∧ ∃ (whole : QueryResult) (page : ℕ → QueryResult),
      (r.run none (GraphDialogue.query q.unpaged)).outcome = .ok whole ∧
      (∀ i, (r.run none (GraphDialogue.query (q.paged 2 i))).outcome = .ok (page i)) ∧
      whole.entities = found ∧
      (∀ n, found.length ≤ n * 2 →
        (List.range n).flatMap (fun i => (page i).entities) = whole.entities) ∧
      ∀ i, (page i).entities.length ≤ 2 ∧ (page i).totalCount = found.length ∧
        ((page i).relationships.map Relationship.id).Nodup ∧
        (page i).relationships =
          (Keyed.latest Relationship.id (Addition.accepted [] log)).filter fun rel =>
            rel.sourceId ∈ (page i).entities.map Entity.id ∧
              rel.targetId ∈ (page i).entities.map Entity.id := by
  intro person node link log q r found
  have hsize : 0 < 2 := by decide
  exact ⟨hsize, by decide +kernel, pages_query log q hsize⟩

end Store

end KnowledgeGraph
