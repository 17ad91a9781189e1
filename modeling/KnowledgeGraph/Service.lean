import KnowledgeGraph.Cache.Call
import KnowledgeGraph.Engine
import KnowledgeGraph.Search.Basic
import KnowledgeGraph.Settings.Basic
/-!
# The query service

A service joins a cache, a planner and the searches over one repository.
A query is answered from the cache if it can be, and otherwise executed
and its result kept; an execution that fails leaves nothing behind.
-/

namespace KnowledgeGraph

structure Service where
  cache : Cache
  planner : Planner
  /-- how many relationships a path may have where nothing else is said;
  held against its rule only when paths are asked for -/
  maxHops : Value
  /-- the page size of queries built here; held against its rule only
  when a query is built -/
  pageSize : Value
  /-- the timeout of queries built here, likewise -/
  timeout : Value

namespace Service

/-- A service with the parts that it has unless others are given. -/
def default : Service :=
  ⟨.default, .default, .int defaultMaxHops, .int 100, .num Query.defaultTimeout⟩

/-- A service as settings describe it. -/
def ofSettings (s : Settings) : Except Fault Service := do
  let cache ← Cache.open? (.num s.cacheSeconds) (.int s.cacheEntries)
  let planner ← Planner.open? (.int s.baseline)
  return ⟨cache, planner, .int s.depth, .int s.pageSize, .num s.querySeconds⟩

/-! ## Queries -/

/-- Executes a query, from the cache if it is there. The clock is read
when the cache is asked and again when the result is kept. A query
without a signature is refused before the cache is asked. -/
def execute (s : Service) (backend : Backend) (asked answered : Binary64) (call : Option Token)
    (q : Query) : Engine.Execution × Service :=
  match q.signature with
  | .error f => (⟨[], .error f⟩, s)
  | .ok signature =>
    match s.cache.lookup asked signature with
    | (some r, cache) => (⟨[], .ok r⟩, { s with cache })
    | (none, cache) =>
      let execution := Engine.execute (some s.planner) backend call q
      -- only a result is kept; a miss is counted either way
      match execution.outcome with
      | .ok r => (execution, { s with cache := cache.store answered signature r })
      | .error _ => (execution, { s with cache })

/-- Executes a query that a caller may have left out. -/
def executeGiven (s : Service) (backend : Backend) (asked answered : Binary64)
    (call : Option Token) : Option Query → Engine.Execution × Service
  | some q => s.execute backend asked answered call q
  | none => (⟨[], .error (.missing "query")⟩, s)

/-- The plan of a query that a caller may have left out. -/
def explain (s : Service) (q : Option Query) : Except Fault Plan := s.planner.planGiven q

/-- The parameters that may be given by their place. -/
def placedParameters : List String := ["entity_type", "property_filters"]

/-- The service's own place among the arguments; nothing may be given
under its name. -/
def receiver : String := "self"

/-- Arguments given by place and by name as one record. More places than
parameters, or a parameter given both ways, are refused. -/
def joinArguments (placed : List Raw) (named : Record) : Except Fault Record :=
  if placedParameters.length < placed.length then .error .wrongArguments
  else
    let byPlace := placedParameters.zip placed
    let taken := receiver :: byPlace.map Prod.fst
    if named.any fun entry => taken.contains entry.1 then .error .wrongArguments
    else .ok (byPlace ++ named)

/-- A record whose filters are the empty bag if they say nothing. -/
def withFilters (arguments : Record) : Record :=
  match arguments.lookup "property_filters" with
  | some raw =>
    if raw.isVoid then ("property_filters", .value (.map [])) :: arguments else arguments
  | none => arguments

/-- A query from arguments, with the service's page size and timeout
where they say none. -/
def buildQuery (s : Service) (placed : List Raw) (named : Record) : Except Fault Query := do
  let arguments ← joinArguments placed named
  let defaults : Record := [("page_size", .value s.pageSize), ("timeout", .value s.timeout)]
  (Query.ofRecord (withFilters arguments ++ defaults)).orFault .query

/-! ## Paths and the cache -/

/-- All paths, with the service's depth where none is given. -/
def allPaths (s : Service) (r : Repository) (token : Option Token) (source target : Value)
    (maxHops : Option Value) : Dialogue.Run GraphQuestion (List Path) :=
  match HopLimit.ofValue (maxHops.getD s.maxHops) with
  | .ok limit => r.allPaths token source target limit
  | .error fault => ⟨[], .error fault⟩

def clearCache (s : Service) : Service := { s with cache := s.cache.clear }

end Service

end KnowledgeGraph
