import KnowledgeGraph.Search.Trace
/-!
# All paths

Depth first, with the way walked so far on a stack: one frame for each id
that is being followed, with the relationships it still has to try. No id
is passed twice on one path, and no path goes on beyond the goal. Paths
come in the order of the relationships chosen, first choices first.
-/

namespace KnowledgeGraph.Search

namespace Depth

/-- An id on the way, and what is left to try from it. -/
structure Frame where
  id : String
  untried : List Relationship

/-- The walk in progress. Ids, relationships and frames are the latest
first. -/
structure State where
  stack : List Frame
  onPath : List String
  /-- the ids on the path, as a set -/
  members : List String
  followed : List Relationship
  found : List Path
  resolved : Resolved

/-- A walk that has only begun. -/
def start (source : String) (untried : List Relationship) : State :=
  ⟨[⟨source, untried⟩], [source], [source], [], [], []⟩

/-- Steps back from the id of the latest frame. -/
def retreat (s : State) (frame : Frame) (below : List Frame) : State :=
  { s with
    stack := below
    onPath := s.onPath.tail
    members := s.members.filter (· ≠ frame.id)
    followed := s.followed.tail }

/-- The path to an id one relationship further on, kept if all its ids
have entities. -/
def collect (s : State) (next : String) (r : Relationship) : GraphDialogue State :=
  (s.resolved.path (next :: s.onPath).reverse (r :: s.followed).reverse .zero).bind
    fun (path?, resolved) => .done { s with found := s.found ++ path?.toList, resolved }

/-- Steps on to an id. -/
def advance (s : State) (next : String) (r : Relationship) : GraphDialogue State :=
  (GraphDialogue.outgoing (.text next)).bind fun untried =>
    .done { s with
      stack := ⟨next, untried⟩ :: s.stack
      onPath := next :: s.onPath
      members := next :: s.members
      followed := r :: s.followed }

/-- Tries one relationship of the latest frame, or steps back if none is
left. -/
def turn (goal : Option String) (maxHops : Nat) (s : State) :
    GraphDialogue (Dialogue.Turn State (List Path)) :=
  match s.stack with
  | [] => .done (.finished s.found)
  | ⟨id, []⟩ :: below => .poll (.done (.again (retreat s ⟨id, []⟩ below)))
  | ⟨id, r :: untried⟩ :: below =>
    let tried := { s with stack := ⟨id, untried⟩ :: below }
    .poll <|
      match r.neighborOf id with
      | none => .done (.again tried)
      | some next =>
        if tried.members.contains next then .done (.again tried)
        -- a path ends at the goal, whatever depth is left
        else if goal = some next then
          (collect tried next r).bind fun after => .done (.again after)
        else if tried.followed.length + 1 < maxHops then
          (advance tried next r).bind fun after => .done (.again after)
        else .done (.again tried)

end Depth

/-- All paths from a source to a goal with at most some number of
relationships. -/
def allPaths (budget : Nat) (source : String) (goal : Option String) (maxHops : Nat) :
    GraphDialogue (List Path) :=
  .poll <|
    if goal = some source then (stay (.text source)).bind fun path? => .done path?.toList
    else if maxHops = 0 then .done []
    else
      (GraphDialogue.outgoing (.text source)).bind fun untried =>
        Dialogue.iterate (Depth.turn goal maxHops) budget (Depth.start source untried)

end KnowledgeGraph.Search
