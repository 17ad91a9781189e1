import KnowledgeGraph.Database.Clause
/-!
# Statements

What a database of entities is asked. An entity is a node under the label
`Entity` and its type's label, a relationship an edge of its type; what
describes them stands in their properties. A statement's text depends on
the shape of what is asked, and every value goes into a parameter.
-/

namespace KnowledgeGraph

structure Statement where
  text : String
  parameters : Fields
deriving DecidableEq

namespace Statement

/-- Lines set in, under an empty one. -/
def indented (lines : List String) : String :=
  "\n" ++ String.join (lines.map fun line => "    " ++ line ++ "\n")

def entityLines : List String :=
  ["MATCH (n:Entity \x7bid: $id\x7d)",
    "RETURN properties(n) AS props, labels(n) AS labels",
    "LIMIT 1"]

/-- The entity with an id. -/
def entity (id : Value) : Statement := ⟨indented entityLines, [("id", id)]⟩

def relationshipLines : List String :=
  ["MATCH (n:Entity \x7bid: $id\x7d)-[r]-(:Entity)",
    "WITH DISTINCT r",
    "WITH r,",
    "     startNode(r).id = $id AS outgoing,",
    "     endNode(r).id = $id AS incoming,",
    "     NOT coalesce(r.directed, true) AS undirected",
    "WHERE ($include_outgoing AND (outgoing OR undirected))",
    "   OR ($include_incoming AND (incoming OR undirected))",
    "RETURN properties(r) AS props, type(r) AS type,",
    "       startNode(r).id AS source_id, endNode(r).id AS target_id",
    "ORDER BY r.created_at, r.id"]

/-- The relationships that leave and that enter an entity. -/
def relationships (id outgoing incoming : Value) : Statement :=
  ⟨indented relationshipLines,
    [("id", id), ("include_outgoing", outgoing), ("include_incoming", incoming)]⟩

def amongLines : List String :=
  ["MATCH (a:Entity)-[r]->(b:Entity)",
    "WHERE a.id IN $ids AND b.id IN $ids",
    "RETURN properties(r) AS props, type(r) AS type,",
    "       a.id AS source_id, b.id AS target_id",
    "ORDER BY r.created_at, r.id"]

/-- The relationships between any two of some entities. -/
def among (ids : List String) : Statement :=
  ⟨indented amongLines, [("ids", .list (ids.map .text))]⟩

/-- The number of entities that a query asks for. -/
def count (q : Query) : Statement :=
  let clause := Clause.ofQuery q
  ⟨"MATCH (n:Entity) " ++ clause.text ++ " RETURN count(n) AS total", clause.parameters⟩

/-- What cuts a page out of all entities. Without a size the page goes on
to the end. -/
def limit (q : Query) : Clause :=
  if 0 < q.pageSize then ⟨" LIMIT $limit", [("limit", .int q.pageSize)]⟩ else ⟨"", []⟩

/-- The page that a query asks for. -/
def page (q : Query) : Statement :=
  let clause := Clause.ofQuery q
  ⟨"MATCH (n:Entity) " ++ clause.text ++
      " RETURN properties(n) AS props, labels(n) AS labels ORDER BY n.id SKIP $skip" ++
      (limit q).text,
    clause.parameters ++ ("skip", .int q.skip) :: (limit q).parameters⟩

end Statement

end KnowledgeGraph
