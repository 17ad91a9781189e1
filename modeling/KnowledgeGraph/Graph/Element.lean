import KnowledgeGraph.Graph.Relationship
/-!
# Elements of a graph

Entities and relationships side by side. An element is known by its kind
and its id: an entity and a relationship may share an id and are two
elements all the same.
-/

namespace KnowledgeGraph

inductive Element where
  | entity (e : Entity)
  | relationship (r : Relationship)

namespace Element

def id : Element → String
  | entity e => e.id
  | relationship r => r.id

/-- Whether two elements are the same node or the same edge. -/
def same : Element → Element → Bool
  | entity e, entity f => e.sameNode f
  | relationship r, relationship s => r.sameEdge s
  | _, _ => false

/-- One of each element in a list. -/
def distinct : List Element → List Element
  | [] => []
  | x :: rest => if rest.any (same x) then distinct rest else x :: distinct rest

end Element

end KnowledgeGraph
