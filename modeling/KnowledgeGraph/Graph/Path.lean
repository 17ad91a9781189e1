import KnowledgeGraph.Graph.Relationship
/-!
# Paths

A path goes from its first entity to its last, one relationship between
each and the next; so it has one entity more than relationships, and
both ends are there (`entities_ne_nil`).
-/

namespace KnowledgeGraph

structure Path where
  entities : List Entity
  relationships : List Relationship
  totalWeight : Binary64
  length_entities : entities.length = relationships.length + 1
deriving DecidableEq

namespace Path

/-- A path of entities and relationships, if their numbers fit. -/
def ofParts (entities : List Entity) (relationships : List Relationship)
    (totalWeight : Binary64) : Checked Path :=
  if h : entities.length = relationships.length + 1 then
    .accept ⟨entities, relationships, totalWeight, h⟩
  else .defect (.broken (.pathShape entities.length relationships.length))

theorem entities_ne_nil (p : Path) : p.entities ≠ [] :=
  List.ne_nil_of_length_eq_add_one p.length_entities

/-- The number of relationships followed. -/
def hops (p : Path) : Nat := p.relationships.length

/-- The number of entities visited. -/
def length (p : Path) : Nat := p.entities.length

def source (p : Path) : Entity := p.entities.head p.entities_ne_nil

def target (p : Path) : Entity := p.entities.getLast p.entities_ne_nil

def entityIds (p : Path) : List String := p.entities.map Entity.id

/-- Entities by name with the relationships' types between them. -/
def textFrom : List Entity → List Relationship → String
  | e :: entities, r :: relationships =>
    s!"[{e.name}] --{r.type.text}--> " ++ textFrom entities relationships
  | e :: entities, [] => s!"[{e.name}]" ++ textFrom entities []
  | [], _ => ""

/-- A path in one line. -/
def text (p : Path) : String := textFrom p.entities p.relationships

/-- A path read from a record. -/
def ofRecord (r : Record) : Checked Path :=
  let parts :=
    (fun entities relationships weight => (entities, relationships, weight))
      <$> r.required "entities" (Reader.list (Reader.record .entity Entity.ofRecord))
      <*> r.withDefault "relationships" []
        (Reader.list (Reader.record .relationship Relationship.ofRecord))
      <*> r.withDefault "total_weight" .zero Reader.number
  parts.andThen fun (entities, relationships, weight) => ofParts entities relationships weight

end Path

end KnowledgeGraph
