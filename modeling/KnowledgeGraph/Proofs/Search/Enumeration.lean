import KnowledgeGraph.Proofs.Graph.Choices
import KnowledgeGraph.Proofs.Number.Order
import KnowledgeGraph.Proofs.Search.Shortest
/-!
# All paths, by plain recursion

The walk with a stack finds what plain recursion would list: the paths
along all walks that come to no id twice, in the order of the
relationships they choose, but for those on which an entity is missing
(`allPaths_enumerates`). A walk goes only so far, so it ends in any graph,
even in one without end, as long as its questions are answered.
-/

namespace KnowledgeGraph.Search

open Repository Dialogue

/-- **The search for all paths enumerates the ways to its goal**, each
once, in the order of the places they choose, and comes to an end. It
returns the paths along these ways, as far as all their ids have entities;
from an id to itself that is the path of this id alone, whatever room there
is. Where the extent is not understated, the budget that it affords is
enough. -/
theorem allPaths_enumerates {r : Repository} {source : String} (hr : r.Answers source)
    (target : String) (maxHops : ℕ) :
    ∃ ways, r.Enumerates source target maxHops ways ∧
      (source = target → ways = [([], [])]) ∧
      (∃ turns, ∀ budget ≥ turns,
        ((allPaths budget source (some target) maxHops).play r.answer).outcome =
          .ok (ways.filterMap fun way => r.pathOf source way.2)) ∧
      (r.Surveyable source →
        (r.allPaths none (.text source) (.text target) (.atMost maxHops)).outcome =
          .ok (ways.filterMap fun way => r.pathOf source way.2)) := by
  have henumerates := r.enumerates_placedTo source target maxHops
  have hpaths : (r.placedTo target maxHops source).filterMap (fun way => r.pathOf source way.2) =
      (r.waysTo target maxHops source).filterMap (r.pathOf source) := by
    rw [← map_snd_placedTo, List.filterMap_map]
    rfl
  refine ⟨_, henumerates, ?_, ?_, fun hsurvey => ?_⟩
  · rintro rfl
    exact henumerates.eq_singleton
  · -- as many turns as there are attempts, and one to notice that none is left
    refine ⟨(r.attempts target maxHops [source] source).length + 1, fun budget hbudget => ?_⟩
    rw [hpaths]
    exact play_allPaths_of_lt hr hbudget
  · rw [hpaths]
    exact outcome_allPaths hsurvey target (.atMost maxHops)

/-- A graph without end. From every id two relationships lead to one longer
id, one leads to another, one back to where it starts, and one is listed
that does not touch it. -/
def endlessGraph : Repository :=
  let label : TypeLabel := ⟨"Word", by decide⟩
  let link (id source target : String) : Relationship :=
    ⟨id, label, source, target, [], .zero, false, none, Binary64.zero_le_zero⟩
  { answer
      | .entity (.text id) => .ok (some ⟨id, label, [], none⟩)
      | .entity _ => .ok none
      | .relationships (.text id) _ _ =>
        .ok [link "1" id (id ++ "a"), link "2" (id ++ "a") id, link "3" id (id ++ "b"),
          link "4" id id, link "5" (id ++ "c") (id ++ "d")]
      | .relationships _ _ _ => .ok []
      | .query _ => .error .cancelled
    heedsTokens := false
    extent := 0 }

/-- In the graph without end the search for the paths to an id three
relationships away comes to an end. -/
theorem allPaths_enumerates_endless :
    endlessGraph.Answers "a" ∧
    ∃ ways, endlessGraph.Enumerates "a" "aaba" 4 ways ∧
      ("a" = "aaba" → ways = [([], [])]) ∧
      (∃ turns, ∀ budget ≥ turns,
        ((allPaths budget "a" (some "aaba") 4).play endlessGraph.answer).outcome =
          .ok (ways.filterMap fun way => endlessGraph.pathOf "a" way.2)) ∧
      (endlessGraph.Surveyable "a" →
        (endlessGraph.allPaths none (.text "a") (.text "aaba") (.atMost 4)).outcome =
          .ok (ways.filterMap fun way => endlessGraph.pathOf "a" way.2)) := by
  have hr : endlessGraph.Answers "a" := ⟨fun _ _ => ⟨_, rfl⟩, fun _ _ => ⟨_, rfl⟩⟩
  exact ⟨hr, allPaths_enumerates hr "aaba" 4⟩

end KnowledgeGraph.Search
