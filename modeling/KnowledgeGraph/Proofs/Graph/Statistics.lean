import KnowledgeGraph.Proofs.Graph.Pages
import Mathlib.Algebra.BigOperators.Ring.Finset
/-!
# Statistics of a store

A store counts its entities where it keeps them and its relationships by
their edges. Both hold each id once, in its latest version
(`Keyed.mem_latest_iff`, `Store.mem_edges_after_iff`), and that is all a
count depends on (`tallies_of_latest`): so what is counted is how many ids
were added, and by type how many of them have their latest version of it
(`Store.statistics_after`). Relationships that were refused count nowhere.
-/

namespace KnowledgeGraph

/-! ## Words counted -/

section Tally

variable {words : List String} {word : String} {n : ℕ}

theorem nodup_eraseDups (words : List String) : words.eraseDups.Nodup :=
  (pairwise_eraseDups (List.pairwise_of_forall fun _ _ => trivial :
    words.Pairwise fun _ _ => True)).imp And.right

/-- No word is counted twice. -/
theorem nodup_map_fst_tally (words : List String) : ((tally words).map Prod.fst).Nodup := by
  have hwords : (tally words).map Prod.fst = words.eraseDups := by
    rw [tally, List.map_map]
    exact List.map_id _
  rw [hwords]
  exact nodup_eraseDups words

/-- Counted is what occurs, as often as it does. -/
theorem mem_tally_iff : (word, n) ∈ tally words ↔ 0 < n ∧ n = words.count word := by
  rw [tally, List.mem_map]
  constructor
  · rintro ⟨other, hother, heq⟩
    obtain ⟨rfl, rfl⟩ := Prod.mk.inj heq
    exact ⟨List.count_pos_iff.2 (List.mem_eraseDups.1 hother), rfl⟩
  · rintro ⟨hpos, rfl⟩
    exact ⟨word, List.mem_eraseDups.2 (List.count_pos_iff.1 hpos), rfl⟩

/-- **All counts together are the number of words.** -/
theorem sum_map_snd_tally (words : List String) :
    ((tally words).map Prod.snd).sum = words.length := by
  have hsame : words.eraseDups.toFinset = words.toFinset := by
    ext word
    rw [List.mem_toFinset, List.mem_toFinset, List.mem_eraseDups]
  calc ((tally words).map Prod.snd).sum
      = (words.eraseDups.map fun word => words.count word).sum := by rw [tally, List.map_map]; rfl
    _ = ∑ word ∈ words.toFinset, words.count word := by
      rw [← List.sum_toFinset _ (nodup_eraseDups words), hsame]
    _ = words.length := List.sum_toFinset_count_eq_length words

end Tally

/-! ## Ids counted by type -/

/-- Whether a total and counts by type agree with some ids and their types:
the total counts each id once, each type counts the ids that are of it, no
type stands twice or for nothing, and the counts sum up to the total. -/
structure Tallies (total : ℕ) (byType : List (String × ℕ)) (ids : Finset String)
    (type? : String → Option String) : Prop where
  total_eq : total = ids.card
  nodup : (byType.map Prod.fst).Nodup
  mem_iff : ∀ type n, (type, n) ∈ byType ↔ 0 < n ∧ n = (ids.filter (type? · = some type)).card
  sum_eq : (byType.map Prod.snd).sum = total

namespace Keyed

variable {α : Type} {key : α → String} {items kept : List α} {x : α} {k : String}

/-- The item that came last under a key. -/
def last? (key : α → String) (items : List α) (k : String) : Option α :=
  (items.filter fun x => key x = k).getLast?

theorem mem_of_last?_eq_some (h : last? key items k = some x) : x ∈ items ∧ key x = k := by
  simpa using List.mem_filter.1 (List.mem_of_getLast? h)

/-- Something came last under a key if anything came. -/
theorem exists_last?_eq_some (h : k ∈ items.map key) : ∃ x, last? key items k = some x := by
  obtain ⟨x, hx, rfl⟩ := List.mem_map.1 h
  have hmem : x ∈ items.filter fun y => key y = key x := List.mem_filter.2 ⟨hx, by simp⟩
  exact ⟨_, List.getLast?_eq_some_getLast (List.ne_nil_of_mem hmem)⟩

/-- Among the latest of each key is what came last under its own. -/
theorem mem_latest_iff : x ∈ latest key items ↔ last? key items (key x) = some x := by
  rw [latest, List.mem_filterMap]
  constructor
  · rintro ⟨k, -, hk⟩
    obtain ⟨-, rfl⟩ := mem_of_last?_eq_some hk
    exact hk
  · intro h
    have hkey := List.mem_map_of_mem (f := key) (mem_of_last?_eq_some h).1
    exact ⟨key x, List.mem_eraseDups.2 hkey, h⟩

/-- What is chosen from the latest of each key has as many items as keys
are chosen. -/
theorem length_filter_eq_card (hnodup : (kept.map key).Nodup)
    (hkept : ∀ x, x ∈ kept ↔ last? key items (key x) = some x) (p : α → Bool) :
    (kept.filter p).length =
      ((items.map key).toFinset.filter fun k => (last? key items k).any p).card := by
  rw [← List.length_map (f := key),
    ← List.toFinset_card_of_nodup (hnodup.sublist (List.filter_sublist.map key))]
  congr 1
  ext k
  rw [List.mem_toFinset, List.mem_map, Finset.mem_filter, List.mem_toFinset]
  constructor
  · rintro ⟨x, hx, rfl⟩
    obtain ⟨hx, hp⟩ := List.mem_filter.1 hx
    have hlast := (hkept x).1 hx
    exact ⟨List.mem_map_of_mem (mem_of_last?_eq_some hlast).1, by rw [hlast]; exact hp⟩
  · rintro ⟨hk, hany⟩
    obtain ⟨x, hlast⟩ := exists_last?_eq_some hk
    obtain rfl := (mem_of_last?_eq_some hlast).2
    rw [hlast] at hany
    exact ⟨x, List.mem_filter.2 ⟨(hkept x).2 hlast, hany⟩, rfl⟩

/-- **Where the latest of each key are kept, ids are counted.** -/
theorem tallies_of_latest (hnodup : (kept.map key).Nodup)
    (hkept : ∀ x, x ∈ kept ↔ last? key items (key x) = some x) (type : α → String) :
    Tallies kept.length (tally (kept.map type)) (items.map key).toFinset
      fun k => (last? key items k).map type := by
  have hcount : ∀ word, (kept.map type).count word =
      ((items.map key).toFinset.filter fun k => (last? key items k).map type = some word).card := by
    intro word
    rw [List.count_eq_length_filter, List.filter_map, List.length_map,
      length_filter_eq_card hnodup hkept]
    congr 1
    refine Finset.filter_congr fun k _ => ?_
    cases last? key items k <;> simp
  constructor
  case total_eq =>
    have hall := length_filter_eq_card hnodup hkept fun _ => true
    rw [List.filter_true] at hall
    rw [hall, Finset.filter_true_of_mem]
    intro k hk
    obtain ⟨x, hlast⟩ := exists_last?_eq_some (List.mem_toFinset.1 hk)
    rw [hlast]
    rfl
  case nodup => exact nodup_map_fst_tally _
  case mem_iff =>
    intro word n
    rw [mem_tally_iff, hcount]
  case sum_eq => rw [sum_map_snd_tally, List.length_map]

end Keyed

/-! ## What a store counts -/

namespace Addition

theorem map_id_entities (log : List Addition) : (entities log).map Entity.id = introduced log := by
  rw [entities, introduced, List.map_filterMap]
  refine List.filterMap_congr fun a _ => ?_
  cases a <;> rfl

end Addition

namespace Store

variable {r : Relationship}

/-- **The edges are the relationships that came last under their ids**, of
those that were accepted. -/
theorem mem_edges_after_iff (log : List Addition) : r ∈ (after log).edges ↔
    Keyed.last? Relationship.id (Addition.accepted [] log) r.id = some r := by
  have h := reflects_after log
  rw [h.edges_eq, ← h.mem_relationships, relationships_after, Keyed.mem_latest_iff]

/-- **A store counts the ids that were added to it.** In all it has as many
entities as ids of entities were added, and as many relationships as ids of
relationships were accepted. Each of them counts once by type, that of its
latest version, and the counts of all types sum up to the total. -/
theorem statistics_after (log : List Addition) :
    let s := (after log).statistics
    let entities := Addition.entities log
    let relationships := Addition.accepted [] log
    Tallies s.entities s.entitiesByType (Addition.introduced log).toFinset
        (fun id => (Keyed.last? Entity.id entities id).map (·.type.text)) ∧
      Tallies s.relationships s.relationshipsByType (relationships.map Relationship.id).toFinset
        (fun id => (Keyed.last? Relationship.id relationships id).map (·.type.text)) := by
  intro s entities relationships
  constructor
  · have hkept : (after log).entities = Keyed.latest Entity.id entities := entities_after log
    rw [← Addition.map_id_entities]
    refine Keyed.tallies_of_latest ?_ (fun e => ?_) fun e : Entity => e.type.text
    · rw [hkept]
      exact Keyed.nodup_latest ..
    · rw [hkept]
      exact Keyed.mem_latest_iff
  · refine Keyed.tallies_of_latest ?_ (fun r => mem_edges_after_iff log)
      fun r : Relationship => r.type.text
    rw [(reflects_after log).edges_eq]
    exact Relationship.nodup_map_id_latest _

/-- An entity and a relationship that come to be of another type, the
relationship between other ends at that, and a relationship that is
refused. -/
example :
    let place : TypeLabel := ⟨"Place", by decide⟩
    let road : TypeLabel := ⟨"Road", by decide⟩
    let track : TypeLabel := ⟨"Track", by decide⟩
    let node (id : String) (type : TypeLabel) : Addition := .entity ⟨id, type, [], none⟩
    let link (id source target : String) (type : TypeLabel) : Addition :=
      .relationship ⟨id, type, source, target, [], Relationship.defaultWeight.1, true, none,
        Relationship.defaultWeight.2⟩
    (after [node "a" road, node "b" place, link "1" "a" "b" road, link "2" "a" "c" road,
        node "a" place, link "1" "b" "a" track]).statistics =
      ⟨2, 1, [("Place", 2)], [("Track", 1)]⟩ := by decide +kernel

end Store

end KnowledgeGraph
