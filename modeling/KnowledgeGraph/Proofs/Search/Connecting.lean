import KnowledgeGraph.Proofs.Number.Order
import KnowledgeGraph.Proofs.Search.Shortest
/-!
# Paths that connect

Where every id that can be reached has its entity (`Repository.Resolves`),
the path along a walk connects the ends of the walk: it leads from one to
the other over entities none of which comes twice, and each of its
relationships leaves the entity before it and leads to the one after it
(`Repository.Connects`). So it is with every store, whatever was added to
it (`Store.resolves_after`).

The search for the fewest relationships goes along the first walk there is.
Hence it finds a path exactly if there is a walk, and no walk is shorter
(`fewestHops_optimal`).
-/

namespace KnowledgeGraph

namespace Repository

/-- Whether every id that can be reached from a source has its entity, one
with this id. -/
def Resolves (r : Repository) (source : String) : Prop :=
  ∀ id, r.Reaches source id → ∃ e, r.entity? id = some e ∧ e.id = id

/-- Whether a path leads from a source to a target: its ends are theirs, no
entity comes twice, and each relationship is one that the repository finds
to leave the entity before it, and leads to the entity after it. -/
structure Connects (r : Repository) (source target : String) (p : Path) : Prop where
  source : p.source.id = source
  target : p.target.id = target
  nodup : p.entityIds.Nodup
  step : ∀ (i : ℕ) (e e' : Entity) (rel : Relationship),
    p.entities[i]? = some e → p.relationships[i]? = some rel → p.entities[i + 1]? = some e' →
    rel ∈ r.links e.id ∧ rel.neighborOf e.id = some e'.id

variable {r : Repository} {source target : String} {places : List ℕ} {steps : Way} {p : Path}

theorem Resolves.isSome_entity? (h : r.Resolves source) {id : String}
    (hid : r.Reaches source id) : (r.entity? id).isSome := by
  obtain ⟨e, he, -⟩ := h id hid
  rw [he]
  rfl

/-- The weight of a path has no part in where it leads. -/
theorem Connects.weighing (h : r.Connects source target p) (weight : Binary64) :
    r.Connects source target (p.weighing weight) :=
  ⟨h.source, h.target, h.nodup, h.step⟩

theorem relationships_of_pathOf (h : r.pathOf source steps = some p) :
    p.relationships = steps.map Prod.fst := by
  obtain ⟨entities, hlength, -, rfl⟩ := Option.pmap_eq_some_iff.1 h
  rfl

theorem totalWeight_of_pathOf (h : r.pathOf source steps = some p) : p.totalWeight = .zero := by
  obtain ⟨entities, hlength, -, rfl⟩ := Option.pmap_eq_some_iff.1 h
  rfl

/-- The entities of a path have the ids that the walk comes to. -/
theorem Resolves.entityIds_of_pathOf (h : r.Resolves source)
    (hwalk : r.Walk source places steps target) (hp : r.pathOf source steps = some p) :
    p.entityIds = source :: steps.map Prod.snd := by
  obtain ⟨entities, hlength, hentities, rfl⟩ := Option.pmap_eq_some_iff.1 hp
  refine map_of_mapM_eq_some hentities fun id hid e he => ?_
  obtain ⟨e', he', hsame⟩ := h id (hwalk.reaches_of_mem .start hid)
  obtain rfl := Option.some.inj (he.symm.trans he')
  exact hsame

/-- **The path along a walk that comes to no id twice connects its
ends.** -/
theorem Resolves.exists_connects (h : r.Resolves source)
    (hwalk : r.Walk source places steps target) (hnodup : (source :: steps.map Prod.snd).Nodup) :
    ∃ p, r.pathOf source steps = some p ∧ r.Connects source target p := by
  have hsome := isSome_pathOf fun id hid => h.isSome_entity? (hwalk.reaches_of_mem .start hid)
  obtain ⟨p, hp⟩ := Option.isSome_iff_exists.1 hsome
  have hids := h.entityIds_of_pathOf hwalk hp
  have hat : ∀ (i : ℕ) (e : Entity), p.entities[i]? = some e →
      (source :: steps.map Prod.snd)[i]? = some e.id := by
    intro i e he
    rw [← hids, Path.entityIds, List.getElem?_map, he]
    rfl
  refine ⟨p, hp, ?_, ?_, hids ▸ hnodup, fun i e e' rel he hrel he' => ?_⟩
  · have hhead := congrArg List.head? hids
    rw [Path.entityIds, List.head?_map, List.head?_eq_some_head p.entities_ne_nil] at hhead
    exact Option.some.inj hhead
  · have hlast := congrArg List.getLast? hids
    rw [Path.entityIds, List.getLast?_map, List.getLast?_eq_some_getLast p.entities_ne_nil,
      hwalk.getLast?_eq] at hlast
    exact Option.some.inj hlast
  · rw [relationships_of_pathOf hp, List.getElem?_map, Option.map_eq_some_iff] at hrel
    obtain ⟨⟨rel', next⟩, hstep, rfl⟩ := hrel
    obtain rfl : next = e'.id := by
      have hnext := hat (i + 1) e' he'
      rw [List.getElem?_cons_succ, List.getElem?_map, hstep] at hnext
      exact Option.some.inj hnext
    exact hwalk.step_at (hat i e he) hstep

end Repository

/-- **In a store whatever can be reached has its entity**, if the source has
one. -/
theorem Store.resolves_after {log : List Addition} {source : String}
    (hsource : source ∈ Addition.introduced log) :
    (Store.after log).repository.Resolves source := by
  intro id hid
  obtain ⟨e, he⟩ := Option.isSome_iff_exists.1 (Store.isSome_entity?_after hsource hid)
  exact ⟨e, he, by simpa using List.find?_some he⟩

namespace Search

open Repository

variable {r : Repository} {source : String}

/-- **The search for the fewest relationships finds the fewest.** Where all
that can be reached is answered for and has its entity, the search finds
no path exactly if no walk leads to the target. Otherwise it finds one that
connects source and target, with no weight, and no walk between them takes
fewer relationships. -/
theorem fewestHops_optimal (hr : r.Surveyable source) (hentity : r.Resolves source)
    (target : String) :
    ∃ path?, (r.fewestHops none (.text source) (.text target)).outcome = .ok path? ∧
      (path? = none ↔ ¬ ∃ places steps, r.Walk source places steps target) ∧
      ∀ p ∈ path?, r.Connects source target p ∧ p.totalWeight = .zero ∧
        ∀ places steps, r.Walk source places steps target → p.hops ≤ steps.length := by
  obtain ⟨path?, houtcome, hfirst⟩ := outcome_fewestHops hr target
  refine ⟨path?, houtcome, ?_⟩
  cases hfirst with
  | nowhere hno =>
    refine ⟨iff_of_true rfl ?_, fun p hp => absurd hp (Option.not_mem_none p)⟩
    rintro ⟨places, steps, hwalk⟩
    exact hno places steps hwalk
  | @along places steps hwalk =>
    obtain ⟨p, hp, hconnects⟩ := hentity.exists_connects hwalk.1 hwalk.nodup
    rw [hp]
    refine ⟨iff_of_false (Option.some_ne_none p) (not_not_intro ⟨places, steps, hwalk.1⟩), ?_⟩
    intro found hfound
    obtain rfl := Option.some.inj hfound
    refine ⟨hconnects, totalWeight_of_pathOf hp, fun places' steps' hwalk' => ?_⟩
    rw [hops_of_pathOf hp]
    exact hwalk.length_le hwalk'

/-- What is added to a graph that winds: two relationships side by side, a
cycle of no weight, a loop, a way round without direction, and an infinite
weight on the straight one. -/
def windingLog : List Addition :=
  let label : TypeLabel := ⟨"Place", by decide⟩
  let node (id : String) : Addition := .entity ⟨id, label, [], none⟩
  let link (id source target : String) (weight : Binary64) (hweight : .zero ≤ weight)
      (directed : Bool) : Addition :=
    .relationship ⟨id, label, source, target, [], weight, directed, none, hweight⟩
  [node "a", node "b", node "c", node "d", link "1" "a" "b" .one Binary64.zero_le_one true,
    link "2" "a" "b" .zero Binary64.zero_le_zero true,
    link "3" "b" "c" .zero Binary64.zero_le_zero true,
    link "4" "c" "b" .zero Binary64.zero_le_zero true,
    link "5" "b" "b" .one Binary64.zero_le_one true,
    link "6" "d" "c" .one Binary64.zero_le_one false,
    link "7" "a" "d" (.infinite false) Binary64.zero_le_infinite true]

theorem fewestHops_optimal_winding :
    let r := (Store.after windingLog).repository
    r.Surveyable "a" ∧ r.Resolves "a" ∧
    ∃ path?, (r.fewestHops none (.text "a") (.text "d")).outcome = .ok path? ∧
      (path? = none ↔ ¬ ∃ places steps, r.Walk "a" places steps "d") ∧
      ∀ p ∈ path?, r.Connects "a" "d" p ∧ p.totalWeight = .zero ∧
        ∀ places steps, r.Walk "a" places steps "d" → p.hops ≤ steps.length := by
  intro r
  have hr : r.Surveyable "a" := Store.surveyable_after windingLog "a"
  have hsource : "a" ∈ Addition.introduced windingLog := List.mem_cons_self
  have hentity : r.Resolves "a" := Store.resolves_after hsource
  exact ⟨hr, hentity, fewestHops_optimal hr hentity "d"⟩

end Search

end KnowledgeGraph
