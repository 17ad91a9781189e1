import KnowledgeGraph.Graph.Repository
/-!
# From what a search found to a path

A search that goes from id to id remembers for each id where it was
reached from. `Trace.back` follows these memories from the target to the
source; `Resolved.path` then asks for the entities along the way. If one
of them is not there, there is no path.
-/

namespace KnowledgeGraph

/-- For each id reached, the id it was reached from and the relationship
followed. What is in front counts. -/
abbrev Trace := List (String × (String × Relationship))

namespace Trace

/-- The way from the source to some id, with what follows it. The budget
bounds the number of steps back. -/
def backFrom (trace : Trace) (source : String) : Nat → String → List String →
    List Relationship → Except Fault (List String × List Relationship)
  | budget, id, ids, followed =>
    if id = source then .ok (ids, followed)
    else
      match trace.lookup id, budget with
      | none, _ => .error (.missingKey (.text id))
      | some _, 0 => .error .exhausted
      -- one step back
      | some (origin, r), budget + 1 =>
        backFrom trace source budget origin (origin :: ids) (r :: followed)

/-- The ids from the source to the target and the relationships between
them. No id is passed twice, so there are not more steps than ids. -/
def back (trace : Trace) (source target : String) :
    Except Fault (List String × List Relationship) :=
  backFrom trace source trace.length target [target] []

end Trace

/-- The entities asked for so far. -/
abbrev Resolved := List (String × Option Entity)

namespace Resolved

/-- The entity with an id, asked for at most once. -/
def entity (known : Resolved) (id : String) : GraphDialogue (Option Entity × Resolved) :=
  match known.lookup id with
  | some entity? => .done (entity?, known)
  | none =>
    (GraphDialogue.entity (.text id)).bind fun entity? => .done (entity?, (id, entity?) :: known)

/-- The entities with some ids, up to the first that is not there. -/
def entities : List String → Resolved → GraphDialogue (Option (List Entity) × Resolved)
  | [], known => .done (some [], known)
  | id :: rest, known =>
    (entity known id).bind fun
      | (none, known) => .done (none, known)
      | (some e, known) =>
        (entities rest known).bind fun (others?, known) => .done (others?.map (e :: ·), known)

/-- The path along some ids, if all of them have entities. -/
def path (known : Resolved) (ids : List String) (followed : List Relationship)
    (totalWeight : Binary64) : GraphDialogue (Option Path × Resolved) :=
  (entities ids known).bind fun
    | (none, known) => .done (none, known)
    | (some es, known) =>
      (Dialogue.ofExcept ((Path.ofParts es followed totalWeight).orFault .path)).bind fun p =>
        .done (some p, known)

end Resolved

namespace Search

/-- The path that a trace leads along, if all its ids have entities. -/
def pathAlong (trace : Trace) (source target : String) (totalWeight : Binary64) :
    GraphDialogue (Option Path) :=
  (Dialogue.ofExcept (trace.back source target)).bind fun (ids, followed) =>
    (Resolved.path [] ids followed totalWeight).bind fun (path?, _) => .done path?

/-- The path from an id to itself, if it has an entity. -/
def stay (id : Value) : GraphDialogue (Option Path) :=
  (GraphDialogue.entity id).bind fun entity? => .done (entity?.map fun e => ⟨[e], [], .zero, rfl⟩)

end Search

end KnowledgeGraph
