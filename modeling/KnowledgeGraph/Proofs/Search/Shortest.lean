import KnowledgeGraph.Proofs.Graph.Extent
import KnowledgeGraph.Proofs.Search.Breadth
import KnowledgeGraph.Proofs.Search.Depth
/-!
# The shortest of all paths

The search for the path of fewest relationships and the search for all
paths go through a graph in very different orders. Still they agree on
which of several shortest paths comes first: it is the path along the
first walk, by the order of walks (`argmin_allPaths_eq_fewestHops`).
-/

namespace KnowledgeGraph

/-- Whether a path may have some number of relationships. -/
def HopLimit.Allows : HopLimit → ℕ → Prop
  | atMost most, hops => hops ≤ most
  | unlimited, _ => True

namespace Search

open Repository

variable {r : Repository} {source : String}

theorem outcome_allPaths (hr : r.Surveyable source) (target : String) (limit : HopLimit) :
    (r.allPaths none (.text source) (.text target) limit).outcome =
      .ok ((r.waysTo target (limit.within (r.extent + 1)) source).filterMap (r.pathOf source)) := by
  rw [Repository.allPaths, run_none]
  exact play_allPaths hr target _

theorem outcome_fewestHops (hr : r.Surveyable source) (target : String) :
    ∃ path?, (r.fewestHops none (.text source) (.text target)).outcome = .ok path? ∧
      r.FirstPath source target path? := by
  rw [Repository.fewestHops, run_none, fewestHopsBetween_text]
  exact play_fewestHops hr target

/-- A first walk has room where a path of its length has. -/
theorem length_le_within (hr : r.Surveyable source) {target : String} {places : List ℕ}
    {steps : Way} (h : r.FirstWalk source places steps target) {limit : HopLimit}
    (hlimit : limit.Allows steps.length) : steps.length ≤ limit.within (r.extent + 1) := by
  cases limit with
  | atMost most => exact hlimit
  | unlimited =>
    have hlength := hr.length_le h.nodup fun _ hid => h.1.reaches_of_mem .start hid
    rw [List.length_cons, List.length_map] at hlength
    exact Nat.le_of_succ_le hlength

/-- **The searches for one path and for all paths agree on the shortest.**
Where everything that can be reached has an entity, the path of fewest
relationships is, within every limit that allows it, the first of those
of fewest relationships among all paths; and if there is none, there are
no paths at all. -/
theorem argmin_allPaths_eq_fewestHops (hr : r.Surveyable source)
    (hentity : ∀ id, r.Reaches source id → (r.entity? id).isSome) (target : String) :
    ∃ path?, (r.fewestHops none (.text source) (.text target)).outcome = .ok path? ∧
      ∀ limit : HopLimit, (∀ p ∈ path?, limit.Allows p.hops) →
        ∃ paths, (r.allPaths none (.text source) (.text target) limit).outcome = .ok paths ∧
          paths.argmin Path.hops = path? := by
  obtain ⟨path?, houtcome, hfirst⟩ := outcome_fewestHops hr target
  refine ⟨path?, houtcome, fun limit hlimit => ⟨_, outcome_allPaths hr target limit, ?_⟩⟩
  cases hfirst with
  | nowhere hno =>
    rw [waysTo_eq_nil hno]
    rfl
  | along hwalk =>
    rename_i places steps
    have hsome : (r.pathOf source steps).isSome :=
      isSome_pathOf fun id hid => hentity id (hwalk.1.reaches_of_mem .start hid)
    obtain ⟨p, hp⟩ := Option.isSome_iff_exists.1 hsome
    rw [hp] at hlimit ⊢
    have hhops : p.hops = steps.length := hops_of_pathOf hp
    have hroom := length_le_within hr hwalk (hhops ▸ hlimit p rfl)
    exact ((hwalk.foremost_waysTo hroom).filterMap hp fun _ _ => hops_of_pathOf).argmin_eq

/-- A store with two equally short paths, the second of which was added
with its last relationship first. -/
theorem argmin_allPaths_eq_fewestHops_diamond :
    let label : TypeLabel := ⟨"Node", by decide⟩
    let node (id : String) : Addition := .entity ⟨id, label, [], none⟩
    let link (id source target : String) : Addition :=
      .relationship ⟨id, label, source, target, [], Relationship.defaultWeight.1, true, none,
        Relationship.defaultWeight.2⟩
    let log := [node "a", node "b", node "c", node "d", link "1" "c" "d", link "2" "a" "b",
      link "3" "a" "c", link "4" "b" "d"]
    let r := (Store.after log).repository
    r.Surveyable "a" ∧ (∀ id, r.Reaches "a" id → (r.entity? id).isSome) ∧
      ∃ path?, (r.fewestHops none (.text "a") (.text "d")).outcome = .ok path? ∧
        ∀ limit : HopLimit, (∀ p ∈ path?, limit.Allows p.hops) →
          ∃ paths, (r.allPaths none (.text "a") (.text "d") limit).outcome = .ok paths ∧
            paths.argmin Path.hops = path? := by
  intro label node link log r
  have hr : r.Surveyable "a" := Store.surveyable_after log "a"
  have hsource : "a" ∈ Addition.introduced log := List.mem_cons_self
  have hentity : ∀ id, r.Reaches "a" id → (r.entity? id).isSome := fun _ h =>
    Store.isSome_entity?_after hsource h
  exact ⟨hr, hentity, argmin_allPaths_eq_fewestHops hr hentity "d"⟩

end Search

end KnowledgeGraph
