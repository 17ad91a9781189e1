import KnowledgeGraph.Graph.Repository
import KnowledgeGraph.Keyed
/-!
# Listed graphs

A listing answers from what was written down: entities by id, and for
each id a list of relationships, whichever were asked for. It may list
relationships that lead nowhere or do not touch their id, and it has no
regard for tokens. Every query is answered with all its entities.
-/

namespace KnowledgeGraph

structure Listing where
  entities : List Entity
  /-- the relationships listed under ids -/
  adjacency : List (String × List Relationship)

namespace Listing

/-- A listing of entities as they come. An entity listed again takes the
place of the first of its id. -/
def ofEntities (entities : List Entity) (adjacency : List (String × List Relationship)) : Listing :=
  ⟨Keyed.ofList Entity.id entities, adjacency⟩

/-- The entity with an id. -/
def entity? (l : Listing) (id : String) : Option Entity := l.entities.find? fun e => e.id = id

/-- The relationships listed under an id. -/
def listed (l : Listing) (id : Value) : Except Fault (List Relationship) :=
  (GraphQuestion.lookUp (fun id => l.adjacency.lookup id) id).map fun rels? => rels?.getD []

/-- All entities, whatever was asked for. -/
def everything (l : Listing) : QueryResult where
  entities := l.entities
  relationships := []
  totalCount := l.entities.length
  executionTime := .reported .zero
  fromCache := false
  queryPlan := none
  warnings := []

def repository (l : Listing) : Repository where
  answer
    | .entity id => GraphQuestion.lookUp l.entity? id
    | .relationships id _ _ => l.listed id
    | .query _ => .ok l.everything
  heedsTokens := false
  extent := (l.adjacency.flatMap fun entry => entry.2).length

end Listing

end KnowledgeGraph
