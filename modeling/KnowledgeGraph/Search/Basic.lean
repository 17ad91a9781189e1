import KnowledgeGraph.Search.Breadth
import KnowledgeGraph.Search.Depth
import KnowledgeGraph.Search.Limit
import KnowledgeGraph.Search.Weighted
/-!
# Searching a repository

The three searches between ends as they are given, with budgets that a
repository's extent affords. A search that goes by ids takes one turn for
each relationship at most, besides the source's and the last. The walk
over all paths has at most as many frames at one time as there are ids or
relationships allowed, and tries each relationship of a frame once.

An end should be an id. From what is no text no relationship leads on,
and none leads to it; but equal ends are held for one and the same, and
it is asked whether there is an entity.
-/

namespace KnowledgeGraph

/-- How many relationships a path may have where nothing is said. -/
def defaultMaxHops : Nat := 5

namespace Search

/-! ## Budgets -/

/-- The turns of a search that takes every id once. -/
def idBudget (extent : Nat) : Nat := extent + 2

/-- The turns of a walk over all paths. -/
def walkBudget (extent maxHops : Nat) : Nat :=
  Nat.pow (extent + 2) (min maxHops (extent + 1) + 2)

/-! ## Between given ends -/

/-- A search for one path between given ends, by one that starts from an
id. -/
def between (search : String → Option String → GraphDialogue (Option Path))
    (source target : Value) : GraphDialogue (Option Path) :=
  if source.numericEq target then stay source
  else if !source.isKey then .fail .wrongArguments
  else
    match source with
    | .text id => search id target.text?
    | other => .poll <| (GraphDialogue.outgoing other).bind fun _ => .done none

/-- The path of fewest relationships between given ends. -/
def fewestHopsBetween (extent : Nat) : Value → Value → GraphDialogue (Option Path) :=
  between (fewestHops (idBudget extent))

/-- The path of least weight between given ends. -/
def leastWeightBetween (extent : Nat) : Value → Value → GraphDialogue (Option Path) :=
  between (leastWeight (idBudget extent))

/-- All paths from what is no text. -/
def pathsFromNowhere (source target : Value) (maxHops : Nat) : GraphDialogue (List Path) :=
  .poll <|
    if source.numericEq target then (stay source).bind fun path? => .done path?.toList
    else if maxHops = 0 then .done []
    else (GraphDialogue.outgoing source).bind fun _ => .poll (.done [])

/-- All paths between given ends within a limit. A path follows each
relationship of the extent at most once, so one more than all of them is
as good as none. -/
def pathsBetween (extent : Nat) (source target : Value) (limit : HopLimit) :
    GraphDialogue (List Path) :=
  let maxHops := limit.within (extent + 1)
  if !source.isKey then .fail .wrongArguments
  else
    match source with
    | .text id => allPaths (walkBudget extent maxHops) id target.text? maxHops
    | other => pathsFromNowhere other target maxHops

/-- Between ids the path of fewest relationships is the one searched
for. -/
theorem fewestHopsBetween_text (extent : Nat) (source target : String) :
    fewestHopsBetween extent (.text source) (.text target) =
      fewestHops (idBudget extent) source (some target) := by
  by_cases h : source = target
  · subst h
    simp [fewestHopsBetween, between, fewestHops, Value.numericEq]
  · simp [fewestHopsBetween, between, Value.numericEq, Value.isKey, Value.text?, h]

/-- Between ids the path of least weight is the one searched for. -/
theorem leastWeightBetween_text (extent : Nat) (source target : String) :
    leastWeightBetween extent (.text source) (.text target) =
      leastWeight (idBudget extent) source (some target) := by
  by_cases h : source = target
  · subst h
    simp [leastWeightBetween, between, leastWeight, Value.numericEq]
  · simp [leastWeightBetween, between, Value.numericEq, Value.isKey, Value.text?, h]

end Search

namespace Repository

def fewestHops (r : Repository) (token : Option Token) (source target : Value) :
    Dialogue.Run GraphQuestion (Option Path) :=
  r.run token (Search.fewestHopsBetween r.extent source target)

def leastWeight (r : Repository) (token : Option Token) (source target : Value) :
    Dialogue.Run GraphQuestion (Option Path) :=
  r.run token (Search.leastWeightBetween r.extent source target)

def allPaths (r : Repository) (token : Option Token) (source target : Value)
    (limit : HopLimit) : Dialogue.Run GraphQuestion (List Path) :=
  r.run token (Search.pathsBetween r.extent source target limit)

end Repository

end KnowledgeGraph
