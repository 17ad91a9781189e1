import KnowledgeGraph.Search.Trace
/-!
# The path of least weight

Ids wait in a frontier with the weight of the best way found to them, and
the nearest is settled first; weights are not negative, so nothing found
later leads to it by less. Of several nearest the one that has waited
longest is taken, and a way is replaced only by a strictly lighter one:
of equally light paths the first found stays.
-/

namespace KnowledgeGraph.Search

namespace Weighted

/-- An id that waits, with the weight of a way to it and its turn among
all that ever waited. -/
structure Waiting where
  distance : Binary64
  turn : Nat
  id : String
deriving DecidableEq

/-- Whether one is taken before another: it is nearer, or as near and has
waited longer. -/
def Waiting.before (a b : Waiting) : Bool :=
  decide (a.distance < b.distance) ||
    (!decide (b.distance < a.distance) && decide (a.turn < b.turn))

structure State where
  /-- the weight of the lightest way found to an id -/
  distances : List (String × Binary64)
  trace : Trace
  settled : List String
  frontier : List Waiting
  /-- how many have ever waited -/
  turns : Nat

/-- Only the source waits, at no distance. -/
def start (source : String) : State := ⟨[(source, .zero)], [], [], [⟨.zero, 0, source⟩], 1⟩

/-- The first to be taken. -/
def nearest : Waiting → List Waiting → Waiting
  | best, [] => best
  | best, w :: rest => nearest (if w.before best then w else best) rest

/-- Whether a way of some weight to an id is better than what was found
before. -/
def improves (s : State) (id : String) (distance : Binary64) : Bool :=
  match s.distances.lookup id with
  | none => true
  | some known => decide (distance < known)

/-- Follows one relationship away from an id that was just settled at a
distance. -/
def relax (id : String) (distance : Binary64) (s : State) (r : Relationship) : State :=
  match r.neighborOf id with
  | none => s
  | some next =>
    if s.settled.contains next then s
    else if improves s next (distance + r.weight) then
      { s with
        distances := (next, distance + r.weight) :: s.distances
        trace := (next, (id, r)) :: s.trace
        frontier := s.frontier ++ [⟨distance + r.weight, s.turns, next⟩]
        turns := s.turns + 1 }
    else s

/-- Settles the nearest that waits, unless it was settled before, and
follows its relationships, unless it is the goal. -/
def turn (source : String) (goal : Option String) (s : State) :
    GraphDialogue (Dialogue.Turn State (Option Path)) :=
  match s.frontier with
  | [] => .done (.finished none)
  | first :: others =>
    let taken := nearest first others
    let left := { s with frontier := (first :: others).erase taken }
    .poll <|
      -- it waited more than once, and a better way was taken before
      if left.settled.contains taken.id then .done (.again left)
      else
        let left := { left with settled := taken.id :: left.settled }
        if goal = some taken.id then
          (pathAlong left.trace source taken.id taken.distance).bind fun path? =>
            .done (.finished path?)
        else
          (GraphDialogue.outgoing (.text taken.id)).bind fun rels =>
            .done (.again (rels.foldl (relax taken.id taken.distance) left))

end Weighted

/-- The path of least weight from a source to a goal, if there is one. -/
def leastWeight (budget : Nat) (source : String) (goal : Option String) :
    GraphDialogue (Option Path) :=
  if goal = some source then stay (.text source)
  else Dialogue.iterate (Weighted.turn source goal) budget (Weighted.start source)

end KnowledgeGraph.Search
