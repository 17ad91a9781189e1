import KnowledgeGraph.Dialogue
import KnowledgeGraph.Graph.Path
import KnowledgeGraph.Query.Basic
import KnowledgeGraph.Query.Result
/-!
# Repositories

A repository answers three kinds of question about one graph. What it
answers does not change; but it may heed the token that comes with a
question, and then refuses to answer once the token is cancelled.

Ids are texts. A caller may ask by another value, and then nothing is
found.
-/

namespace KnowledgeGraph

/-- What can be asked about a graph. -/
inductive GraphQuestion where
  /-- the entity with an id -/
  | entity (id : Value)
  /-- the relationships of an entity: those that leave it and those that
  enter it, unless the flag for them says nothing -/
  | relationships (id outgoing incoming : Value)
  /-- the page that a query asks for -/
  | query (q : Query)
deriving DecidableEq

/-- What answers a question about a graph. -/
abbrev GraphQuestion.Answer : GraphQuestion → Type
  | .entity _ => Option Entity
  | .relationships _ _ _ => List Relationship
  | .query _ => QueryResult

/-- A dialogue about a graph. -/
abbrev GraphDialogue := Dialogue GraphQuestion GraphQuestion.Answer

namespace GraphDialogue

/-- Asks for the entity with an id. -/
def entity (id : Value) : GraphDialogue (Option Entity) :=
  .ask (.entity id) .done

/-- Asks for the relationships that leave an entity. -/
def outgoing (id : Value) : GraphDialogue (List Relationship) :=
  .ask (.relationships id (.bool true) (.bool false)) .done

/-- Asks a query. -/
def query (q : Query) : GraphDialogue QueryResult := .ask (.query q) .done

end GraphDialogue

/-- What is found by an id. By what is no text nothing is, and by what is
no key nothing can be looked up. -/
def GraphQuestion.lookUp {α : Type} (find? : String → Option α) : Value → Except Fault (Option α)
  | .text id => .ok (find? id)
  | other => if other.isKey then .ok none else .error .wrongArguments

structure Repository where
  answer : (q : GraphQuestion) → Except Fault q.Answer
  /-- whether a cancelled token keeps questions from being answered -/
  heedsTokens : Bool
  /-- at least the number of relationships answered with, all ids taken
  together; it bounds how long searches may take -/
  extent : Nat

namespace Repository

/-- The reply to a question asked under a token that was looked at. -/
def reply (r : Repository) (looked : Except Fault Unit) (q : GraphQuestion) :
    Except Fault q.Answer :=
  if r.heedsTokens then looked.bind fun () => r.answer q else r.answer q

/-- A dialogue with a repository under a token. -/
def run {α : Type} (r : Repository) (token : Option Token) (d : GraphDialogue α) :
    Dialogue.Run GraphQuestion α :=
  d.run (fun call q => r.reply (checkToken token call) q) token

end Repository

end KnowledgeGraph
