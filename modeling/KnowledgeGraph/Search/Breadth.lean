import KnowledgeGraph.Search.Trace
/-!
# The path of fewest relationships

Breadth first: ids are taken from a queue in the order in which they were
first reached, and each is put there once. The first path found to an id
has the fewest relationships. A search need not have a goal; then it
reaches whatever can be reached, in vain.
-/

namespace KnowledgeGraph.Search

namespace Breadth

structure State where
  /-- reached and not yet taken, in the order of reaching -/
  queue : List String
  reached : List String
  trace : Trace

/-- Only the source is reached. -/
def start (source : String) : State := ⟨[source], [source], []⟩

/-- Follows one relationship away from an id. What was reached before
stays as it is. -/
def discover (id : String) (s : State) (r : Relationship) : State :=
  match r.neighborOf id with
  | none => s
  | some next =>
    if s.reached.contains next then s
    else ⟨s.queue ++ [next], next :: s.reached, (next, (id, r)) :: s.trace⟩

/-- Takes one id from the queue and follows its relationships, unless it
is the goal. -/
def turn (source : String) (goal : Option String) (s : State) :
    GraphDialogue (Dialogue.Turn State (Option Path)) :=
  match s.queue with
  | [] => .done (.finished none)
  | id :: queue =>
    .poll <|
      if goal = some id then
        (pathAlong s.trace source id .zero).bind fun path? => .done (.finished path?)
      else
        (GraphDialogue.outgoing (.text id)).bind fun rels =>
          .done (.again (rels.foldl (discover id) { s with queue }))

end Breadth

/-- The path of fewest relationships from a source to a goal, if there is
one. Its weight is not summed. -/
def fewestHops (budget : Nat) (source : String) (goal : Option String) :
    GraphDialogue (Option Path) :=
  if goal = some source then stay (.text source)
  else Dialogue.iterate (Breadth.turn source goal) budget (Breadth.start source)

end KnowledgeGraph.Search
