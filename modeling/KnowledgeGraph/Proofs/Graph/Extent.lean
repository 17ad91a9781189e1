import KnowledgeGraph.Graph.Listing
import KnowledgeGraph.Proofs.Graph.Additions
import KnowledgeGraph.Proofs.Graph.Reach
import Mathlib.Algebra.BigOperators.Group.Finset.Piecewise
/-!
# The extent of repositories

A repository that always answers, with relationships of some list, can be
searched from every source, if its extent is not understated
(`Repository.surveyable_of_links`). So it is with listed graphs
(`Listing.surveyable`) and with what was added to a store: there each
relationship is found from two ends at most (`Store.surveyable_after`).
-/

namespace KnowledgeGraph

theorem Relationship.neighborOf_eq_or {rel : Relationship} {id next : String}
    (h : rel.neighborOf id = some next) : next = rel.sourceId ∨ next = rel.targetId := by
  unfold neighborOf at h
  split at h
  · exact Or.inr (Option.some.inj h).symm
  · split at h
    · exact Or.inl (Option.some.inj h).symm
    · cases h

/-- Relationships of one list lead to finitely many ids. -/
theorem Repository.surveyable_of_links {r : Repository} (all : List Relationship)
    (hlinks : ∀ id, ∃ rels, r.answer (.relationships (.text id) (.bool true) (.bool false)) =
      .ok rels)
    (hentity : ∀ id, ∃ entity?, r.answer (.entity (.text id)) = .ok entity?)
    (hall : ∀ id, ∀ rel ∈ r.links id, rel ∈ all)
    (hextent : ∀ ids : Finset String, ∑ id ∈ ids, (r.links id).length ≤ r.extent)
    (source : String) : r.Surveyable source := by
  have hends : { id | r.Reaches source id } ⊆
      (insert source
        (all.flatMap fun rel => [rel.sourceId, rel.targetId]).toFinset : Finset _) := by
    intro id hid
    cases hid with
    | start => simp
    | follow _ hrel hnext =>
      refine Finset.mem_coe.2 (Finset.mem_insert_of_mem (List.mem_toFinset.2 ?_))
      refine List.mem_flatMap.2 ⟨_, hall _ _ hrel, ?_⟩
      rcases Relationship.neighborOf_eq_or hnext with rfl | rfl <;> simp
  exact ⟨fun id _ => hlinks id, fun id _ => hentity id, (Finset.finite_toSet _).subset hends,
    hextent _⟩

/-! ## Listed graphs -/

namespace Listing

theorem links_repository (l : Listing) (id : String) :
    l.repository.links id = (l.adjacency.lookup id).getD [] := rfl

/-- However ids are chosen, what is listed under them is in the listing. -/
theorem sum_lookup_le (adjacency : List (String × List Relationship)) (ids : Finset String) :
    ∑ id ∈ ids, ((adjacency.lookup id).getD []).length ≤
      (adjacency.flatMap fun entry => entry.2).length := by
  induction adjacency with
  | nil => simp
  | cons entry rest ih =>
    obtain ⟨key, rels⟩ := entry
    have heach : ∀ id ∈ ids, ((List.lookup id ((key, rels) :: rest)).getD []).length ≤
        (if id = key then rels.length else 0) + ((rest.lookup id).getD []).length := by
      intro id _
      by_cases h : id = key
      · subst h
        simp
      · rw [lookup_cons_of_ne h]
        omega
    have hfirst : ∑ id ∈ ids, (if id = key then rels.length else 0) ≤ rels.length := by
      rw [Finset.sum_ite_eq']
      split <;> omega
    calc ∑ id ∈ ids, ((List.lookup id ((key, rels) :: rest)).getD []).length
        ≤ ∑ id ∈ ids, ((if id = key then rels.length else 0) + ((rest.lookup id).getD []).length) :=
          Finset.sum_le_sum heach
      _ = ∑ id ∈ ids, (if id = key then rels.length else 0) +
          ∑ id ∈ ids, ((rest.lookup id).getD []).length := Finset.sum_add_distrib
      _ ≤ rels.length + (rest.flatMap fun entry => entry.2).length := Nat.add_le_add hfirst ih
      _ = (((key, rels) :: rest).flatMap fun entry => entry.2).length := by
          rw [List.flatMap_cons, List.length_append]

theorem mem_of_mem_links {l : Listing} {id : String} {rel : Relationship}
    (h : rel ∈ l.repository.links id) : rel ∈ l.adjacency.flatMap fun entry => entry.2 := by
  rw [links_repository] at h
  cases hlookup : l.adjacency.lookup id with
  | none => simp [hlookup] at h
  | some rels =>
    rw [hlookup] at h
    exact List.mem_flatMap.2 ⟨_, mem_of_lookup hlookup, h⟩

/-- **Every listed graph can be searched.** -/
theorem surveyable (l : Listing) (source : String) : l.repository.Surveyable source :=
  Repository.surveyable_of_links (r := l.repository) _ (fun _ => ⟨_, rfl⟩) (fun _ => ⟨_, rfl⟩)
    (fun _ _ => mem_of_mem_links) (sum_lookup_le l.adjacency) source

end Listing

/-! ## Stores -/

namespace Store

open Relationship (latest counts)

/-- The relationships that lead on are those that count. -/
theorem answer_outgoing_after (log : List Addition) (id : String) :
    (after log).repository.answer (.relationships (.text id) (.bool true) (.bool false)) =
      .ok ((latest (Addition.accepted [] log)).filter (counts id true false)) :=
  (reflects_after log).relationshipsOf id true false

theorem links_after (log : List Addition) (id : String) :
    (after log).repository.links id =
      (latest (Addition.accepted [] log)).filter (counts id true false) := by
  rw [Repository.links, answer_outgoing_after]

/-- However ids are chosen, a relationship leads on from two of them at
most. -/
theorem sum_filter_counts_le (rels : List Relationship) (ids : Finset String) :
    ∑ id ∈ ids, (rels.filter (counts id true false)).length ≤ 2 * rels.length := by
  induction rels with
  | nil => simp
  | cons rel rels ih =>
    have heach : ∀ id ∈ ids, ((rel :: rels).filter (counts id true false)).length ≤
        (if rel.sourceId = id then 1 else 0) + (if rel.targetId = id then 1 else 0) +
          (rels.filter (counts id true false)).length := by
      intro id _
      have hle : ((rel :: rels).filter (counts id true false)).length ≤
          (rels.filter (counts id true false)).length + 1 := by
        rw [List.filter_cons]
        split
        · exact le_rfl
        · exact Nat.le_succ _
      by_cases hsource : rel.sourceId = id
      · rw [if_pos hsource]
        omega
      · by_cases htarget : rel.targetId = id
        · rw [if_pos htarget]
          omega
        · have hnot : ¬ counts id true false rel = true := by simp [counts, hsource, htarget]
          rw [List.filter_cons_of_neg hnot]
          omega
    have hend : ∀ x : String, ∑ id ∈ ids, (if x = id then 1 else 0) ≤ 1 := by
      intro x
      rw [Finset.sum_ite_eq]
      split <;> omega
    have hsource := hend rel.sourceId
    have htarget := hend rel.targetId
    have hsum := Finset.sum_le_sum heach
    rw [Finset.sum_add_distrib, Finset.sum_add_distrib] at hsum
    rw [List.length_cons]
    omega

/-- **Whatever can be reached in a store has an entity**, if the source has
one: no relationship is accepted between others. -/
theorem isSome_entity?_after {log : List Addition} {source id : String}
    (hsource : source ∈ Addition.introduced log) (h : (after log).repository.Reaches source id) :
    ((after log).repository.entity? id).isSome := by
  have hreflects := reflects_after log
  have hknown : id ∈ (Addition.introduced log).reverse := by
    cases h with
    | start => exact List.mem_reverse.2 hsource
    | follow _ hrel hnext =>
      rw [links_after] at hrel
      have hrel' := (Relationship.latest_sublist _).subset (List.mem_filter.1 hrel).1
      obtain ⟨hfrom, hto⟩ := hreflects.ends_known _ hrel'
      rcases Relationship.neighborOf_eq_or hnext with rfl | rfl
      · exact hfrom
      · exact hto
  exact (hreflects.has_iff id).2 hknown

/-- **Every store can be searched**, whatever was added to it. -/
theorem surveyable_after (log : List Addition) (source : String) :
    (after log).repository.Surveyable source := by
  have h := reflects_after log
  refine Repository.surveyable_of_links (latest (Addition.accepted [] log))
    (fun id => ⟨_, answer_outgoing_after log id⟩) (fun id => ⟨_, rfl⟩) (fun id rel hrel => ?_)
    (fun ids => ?_) source
  · rw [links_after] at hrel
    exact (List.mem_filter.1 hrel).1
  · -- as many relationships stand under ids as there are edges
    have hperm : (latest (Addition.accepted [] log)).Perm (after log).relationships :=
      (List.perm_ext_iff_of_nodup ((Relationship.nodup_map_id_latest _).of_map _)
        (h.nodup_ids.of_map _)).2 fun r => (h.mem_relationships r).symm
    have hextent : (after log).repository.extent =
        2 * (latest (Addition.accepted [] log)).length := by
      rw [hperm.length_eq]
      rfl
    rw [hextent]
    simp only [links_after]
    exact sum_filter_counts_le _ ids

end Store

end KnowledgeGraph
