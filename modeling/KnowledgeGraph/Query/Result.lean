import KnowledgeGraph.Graph.Relationship
/-!
# Query results

A page of entities with the relationships among them, and the number of
entities on all pages. Where the time was taken by a running clock its
reading is left open (`Timing.measured`).
-/

namespace KnowledgeGraph

/-- How long an execution took. -/
inductive Timing where
  /-- in seconds, as reported -/
  | reported (seconds : Binary64)
  /-- by a running clock, whatever it read -/
  | measured
deriving DecidableEq

/-- Whether an execution still has to be timed: it reports no time. -/
def Timing.isUnset : Timing → Bool
  | reported seconds => seconds.numEq .zero
  | measured => false

structure QueryResult where
  entities : List Entity
  relationships : List Relationship
  totalCount : Int
  executionTime : Timing
  fromCache : Bool
  queryPlan : Option String
  warnings : List String
deriving DecidableEq

/-- A result read from a record. -/
def QueryResult.ofRecord (r : Record) : Checked QueryResult :=
  QueryResult.mk
    <$> r.withDefault "entities" [] (Reader.list (Reader.record .entity Entity.ofRecord))
    <*> r.withDefault "relationships" []
      (Reader.list (Reader.record .relationship Relationship.ofRecord))
    <*> r.withDefault "total_count" 0 Reader.integer
    <*> r.withDefault "execution_time" (.reported .zero)
      (fun raw => (Reader.number raw).map .reported)
    <*> r.withDefault "from_cache" false Reader.truth
    <*> r.withDefault "query_plan" none (Reader.orNull Reader.text)
    <*> r.withDefault "warnings" [] (Reader.list Reader.text)

end KnowledgeGraph
