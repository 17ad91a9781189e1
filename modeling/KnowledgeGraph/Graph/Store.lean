import KnowledgeGraph.Graph.Repository
import KnowledgeGraph.Keyed
/-!
# Graphs in memory

A store is built by adding entities and relationships. Adding under an id
that is taken replaces what was there. Entities and relationships keep
the place of their first adding, and that is their order in queries; the
relationships of one entity come in the order of their latest adding.

A relationship is kept twice: under its id, and as an edge of a graph in
which two nodes may have many edges (`Store.edges`). An edge is known by
its ends and its key, so when a relationship moves to other ends its old
edge has to be taken out first. What is asked about one entity is read
off the edges at it, and the relationship of each edge is looked up by
its key.
-/

namespace KnowledgeGraph

structure Store where
  /-- in the order of their first adding -/
  entities : List Entity
  /-- in the order of their first adding -/
  relationships : List Relationship
  /-- the edges of the graph in the order of their numbers: an edge gets
  the next one whenever it is added -/
  edges : List Relationship

/-- How many things a store holds, in all and by type. -/
structure GraphStatistics where
  entities : Nat
  relationships : Nat
  entitiesByType : List (String × Nat)
  relationshipsByType : List (String × Nat)
deriving DecidableEq

/-- How often each word occurs, in the order of first occurrences. -/
def tally (words : List String) : List (String × Nat) :=
  words.eraseDups.map fun word => (word, words.count word)

namespace Store

def empty : Store := ⟨[], [], []⟩

/-! ## Adding -/

/-- The entity with an id. -/
def entity? (s : Store) (id : String) : Option Entity := s.entities.find? fun e => e.id = id

def has (s : Store) (id : String) : Bool := (s.entity? id).isSome

/-- The relationship with an id. -/
def relationship? (s : Store) (id : String) : Option Relationship :=
  s.relationships.find? fun r => r.id = id

def addEntity (s : Store) (e : Entity) : Store :=
  { s with entities := Keyed.put Entity.id e s.entities }

/-- The edges without the one of a relationship. -/
def withoutEdge (r : Relationship) (edges : List Relationship) : List Relationship :=
  edges.filter fun edge => !edge.sameLink r

/-- The edges after the one of a relationship is taken out, which has to
be among them. -/
def removeEdge (r : Relationship) (edges : List Relationship) :
    Except Fault (List Relationship) :=
  if edges.any (·.sameLink r) then .ok (withoutEdge r edges)
  else
    .error <| .foreign "NetworkXError"
      s!"The edge {r.sourceId}-{r.targetId} with key {r.id} is not in the graph."

/-- The edges after the one of a relationship is added. One that is there
already gets a new number. -/
def addEdge (r : Relationship) (edges : List Relationship) : List Relationship :=
  withoutEdge r edges ++ [r]

/-- The edges once a relationship with an id is forgotten. Its edge lies
between its own ends. -/
def edgesWithout (s : Store) (id : String) : Except Fault (List Relationship) :=
  match s.relationship? id with
  | some previous => removeEdge previous s.edges
  | none => .ok s.edges

/-- The fault of a relationship whose end is unknown. -/
def unknownEnd (r : Relationship) (id : String) : Fault :=
  .argument "relationship" (some s!"Relationship {r.id} references unknown entity {id}")

/-- Both ends of a relationship have to be there, the source first. -/
def addRelationship (s : Store) (r : Relationship) : Except Fault Store :=
  if !s.has r.sourceId then .error (unknownEnd r r.sourceId)
  else if !s.has r.targetId then .error (unknownEnd r r.targetId)
  else
    (s.edgesWithout r.id).map fun edges =>
      { s with
        relationships := Keyed.put Relationship.id r s.relationships
        edges := addEdge r edges }

/-! ## Asking -/

/-- The relationship that an edge with a key stands for. -/
def relationshipOfKey (s : Store) (key : String) : Except Fault Relationship :=
  (s.relationship? key).elim (.error (.missingKey (.text key))) .ok

/-- The relationships of the edges that have an end somewhere, with the
numbers of the edges. -/
def edgesAt (s : Store) (hasEnd : Relationship → Bool) :
    Except Fault (List (Relationship × Nat)) :=
  (s.edges.zipIdx.filter fun edge => hasEnd edge.1).mapM fun edge =>
    (s.relationshipOfKey edge.1.id).map fun r => (r, edge.2)

/-- The relationships of an entity, the latest added last. Those that
leave it are asked for by `outgoing` and those that enter it by
`incoming`; one without direction is asked for by either. -/
def relationshipsOf (s : Store) (id : String) (outgoing incoming : Bool) :
    Except Fault (List Relationship) :=
  if !s.has id then .ok []
  else do
    let leaving ← s.edgesAt fun edge => edge.sourceId = id
    let entering ← s.edgesAt fun edge => edge.targetId = id
    let sighted :=
      leaving.filter (fun edge => outgoing || (incoming && !edge.1.directed)) ++
        entering.filter (fun edge => incoming || (outgoing && !edge.1.directed))
    let keys := (sighted.mergeSort fun a b => a.2 ≤ b.2).map (·.1.id)
    -- the edge from an entity to itself is sighted from either end
    keys.eraseDups.mapM s.relationshipOfKey

/-- Whether an entity is what a query asks for. -/
def selects (q : Query) (e : Entity) : Bool :=
  q.entityType.all (· = e.type.text) && q.filters.all e.properties.meet

/-- The entities that a query asks for, on all pages. -/
def selected (s : Store) (q : Query) : List Entity := s.entities.filter (selects q)

/-- One page of a list. -/
def page {α : Type} (q : Query) (items : List α) : List α :=
  let rest := items.drop q.skip
  if 0 < q.pageSize then rest.take q.pageSize else rest

/-- The relationships with both ends among some entities. -/
def among (s : Store) (entities : List Entity) : List Relationship :=
  let ids := entities.map Entity.id
  s.relationships.filter fun r => ids.contains r.sourceId && ids.contains r.targetId

/-- A page of the entities that a query asks for, with the relationships
among them. -/
def query (s : Store) (q : Query) : QueryResult :=
  let found := s.selected q
  { entities := page q found
    relationships := s.among (page q found)
    totalCount := found.length
    executionTime := .measured
    fromCache := false
    queryPlan := none
    warnings := [] }

/-- What comes of a call without a query. Its token is looked for first,
and then what is looked for in every query. -/
def answerWithoutQuery (s : Store) : Option Token → Except Fault QueryResult
  | none => .error (.lacking .null "cancel_token")
  | some token => do
    token.strike 1
    token.check 1
    .error (.lacking .null (if s.entities.isEmpty then "skip" else "entity_type"))

def statistics (s : Store) : GraphStatistics :=
  { entities := s.entities.length
    relationships := s.edges.length
    entitiesByType := tally (s.entities.map (·.type.text))
    relationshipsByType := tally (s.edges.map (·.type.text)) }

/-- The store as a repository. Every relationship is found from two ends
at most. -/
def repository (s : Store) : Repository where
  answer
    | .entity id => GraphQuestion.lookUp s.entity? id
    | .relationships (.text id) outgoing incoming =>
      s.relationshipsOf id (!outgoing.isVoid) (!incoming.isVoid)
    | .relationships _ _ _ => .ok []
    | .query q => .ok (s.query q)
  heedsTokens := true
  extent := 2 * s.relationships.length

end Store

end KnowledgeGraph
