import KnowledgeGraph.Graph.Repository
import KnowledgeGraph.Plan.Planner
import KnowledgeGraph.Plan.Readable
/-!
# Executing a query

The engine puts a query to a backend and waits until there is an answer,
the query's time is up, or the governing token is cancelled. An answer
that is there counts, even if the token was cancelled meanwhile; a call
that does not answer is abandoned, and whatever it may still come to is
dropped.
-/

namespace KnowledgeGraph

/-- What becomes of a call to a backend before the query's time is up. -/
inductive Reply where
  | answered (outcome : Except Fault QueryResult)
  /-- no answer comes -/
  | hanging

/-- Something that executes queries. What becomes of a call may depend on
whether the governing token is cancelled during it. -/
abbrev Backend := Query → (isCancelled : Bool) → Reply

/-- A repository answers every call at once. -/
def Repository.backend (r : Repository) : Backend := fun q isCancelled =>
  .answered (r.reply (if isCancelled then .error .cancelled else .ok ()) (.query q))

namespace Engine

/-- What an execution does to a backend. -/
inductive Event where
  /-- a call under the governing token -/
  | called (token : Governing)
  /-- the call was given up -/
  | abandoned
deriving DecidableEq

/-- How an execution went. -/
structure Execution where
  events : List Event
  outcome : Except Fault QueryResult

/-- The type that a query asks for, as a detail of its failure. -/
def typeDetail (q : Query) : String × Value :=
  ("entity_type", (q.entityType.map Value.text).getD .null)

/-- The failure of a query that was cancelled while it waited. -/
def cancelledWaiting (q : Query) : Fault :=
  .failed (.cancellation (.text "Query cancelled while waiting on repository")
    (.map [typeDetail q]))

/-- The failure of a query whose time was up. -/
def timedOut (q : Query) : Fault :=
  .failed (.timeout (.text s!"Query exceeded timeout of {String.ofList q.timeout.1.text}s")
    (.map [("timeout", .num q.timeout), typeDetail q]))

/-- The readable plan of a query, if there is a planner. -/
def planText (planner : Option Planner) (q : Query) : Except Fault (Option String) :=
  match planner with
  | none => .ok none
  | some planner => (planner.plan q).bind fun plan => plan.readable.map some

/-- An answer as it is handed on: fresh, timed, and with a plan if it
came without one. -/
def finish (planner : Option Planner) (q : Query) (r : QueryResult) : Except Fault QueryResult :=
  let timed := if r.executionTime.isUnset then .measured else r.executionTime
  let fresh := { r with fromCache := false, executionTime := timed }
  match r.queryPlan with
  | some _ => .ok fresh
  | none => (planText planner q).map fun plan => { fresh with queryPlan := plan }

/-- Executes a query on a backend, under a token of the call or else the
query's own. A token cancelled before the call keeps it from being
made. -/
def execute (planner : Option Planner) (backend : Backend) (call : Option Token) (q : Query) :
    Execution :=
  let governing := Governing.select call q
  match checkToken governing.token? 0 with
  | .error f => ⟨[], .error f⟩
  | .ok () =>
    let isCancelled := isCancelledAt governing.token? 1
    -- an answer is not held against the token again
    match backend q isCancelled with
    | .answered outcome => ⟨[.called governing], outcome.bind (finish planner q)⟩
    | .hanging =>
      ⟨[.called governing, .abandoned],
        .error (if isCancelled then cancelledWaiting q else timedOut q)⟩

/-- Executes a query that a caller may have left out. -/
def executeGiven (planner : Option Planner) (backend : Backend) (call : Option Token) :
    Option Query → Execution
  | some q => execute planner backend call q
  | none => ⟨[], .error (.missing "query")⟩

end Engine

end KnowledgeGraph
