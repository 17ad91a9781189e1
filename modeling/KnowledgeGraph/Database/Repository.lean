import KnowledgeGraph.Database.Row
import KnowledgeGraph.Database.Statement
import KnowledgeGraph.Graph.Repository
/-!
# A repository over a database

Every question about a graph is put to the database as a dialogue of
statements. The token is looked at before the first statement of each
question, and in a query again before the page is asked for.
-/

namespace KnowledgeGraph

/-- A dialogue with a database. -/
abbrev DatabaseDialogue := Dialogue Statement fun _ => Rows

namespace Database

open Dialogue

/-- The entity that an answer describes, if any. Of several rows the first
counts. -/
def entityOf (rows : Rows) : Except Fault (Option Entity) :=
  (Rows.first? rows).bind fun row? => row?.mapM Row.entity

def entitiesOf (rows : Rows) : Except Fault (List Entity) :=
  (Rows.all rows).bind fun rows => rows.mapM Row.entity

def relationshipsOf (rows : Rows) : Except Fault (List Relationship) :=
  (Rows.all rows).bind fun rows => rows.mapM Row.relationship

/-- Asks for an entity. -/
def entity (id : Value) : DatabaseDialogue (Option Entity) :=
  .poll <| .ask (.entity id) fun rows => ofExcept (entityOf rows)

/-- Asks for relationships, unless none are asked for. -/
def relationships (id outgoing incoming : Value) : DatabaseDialogue (List Relationship) :=
  .poll <|
    if !outgoing.isVoid || !incoming.isVoid then
      .ask (.relationships id outgoing incoming) fun rows => ofExcept (relationshipsOf rows)
    else .done []

/-- The count that a row returns, not yet held against its rule. Without
a row nothing was counted. -/
def countOf (rows : Rows) : Except Fault Raw :=
  (Rows.first? rows).bind fun
    | some row => Row.column row "total"
    | none => .ok (.value (.int 0))

/-- A result from its parts, the count held against its rule. -/
def assemble (total : Raw) (entities : List Entity) (relationships : List Relationship) :
    Except Fault QueryResult :=
  let count := Record.required [("total_count", total)] "total_count" Reader.integer
  (count.map fun totalCount =>
    { entities, relationships, totalCount, executionTime := .measured, fromCache := false,
      queryPlan := none, warnings := [] : QueryResult }).orFault .result

/-- Asks for the relationships among entities, unless there are none. -/
def among (entities : List Entity) : DatabaseDialogue (List Relationship) :=
  if entities.isEmpty then .done []
  else .ask (.among (entities.map Entity.id)) fun rows => ofExcept (relationshipsOf rows)

/-- Asks for the count, then for the page, and last for the relationships
on it. -/
def query (q : Query) : DatabaseDialogue QueryResult := do
  checkpoint
  let total ← ofExcept (countOf (← question (.count q)))
  checkpoint
  let entities ← ofExcept (entitiesOf (← question (.page q)))
  let relationships ← among entities
  ofExcept (assemble total entities relationships)

/-- What comes of a call without a query. Its token is looked for first,
and then what the first statement takes from a query. -/
def answerWithoutQuery {α : Type} : Option Token → Except Fault α
  | none => .error (.lacking .null "cancel_token")
  | some token => (token.check 0).bind fun () => .error (.lacking .null "entity_type")

/-- A question about the graph, put to the database. -/
def put : (q : GraphQuestion) → DatabaseDialogue q.Answer
  | .entity id => entity id
  | .relationships id outgoing incoming => relationships id outgoing incoming
  | .query q => query q

/-- A dialogue about the graph, put to the database. -/
def dialogue {α : Type} (d : GraphDialogue α) : DatabaseDialogue α := d.interpret put

end Database

end KnowledgeGraph
