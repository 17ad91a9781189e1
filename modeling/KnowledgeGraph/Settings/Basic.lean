import KnowledgeGraph.Database.Address
import KnowledgeGraph.Input.Reader
import KnowledgeGraph.Text.LetterCase
/-!
# Settings

What a program can be told about its cache, its queries, its searches,
its planner, its database and its log. Each setting has a name and a
value that it has unless another is given.
-/

namespace KnowledgeGraph

structure Settings where
  /-- how long a result is kept -/
  cacheSeconds : { x : Binary64 // Binary64.zero < x }
  cacheEntries : { n : Nat // 0 < n }
  querySeconds : { x : Binary64 // Binary64.zero < x }
  pageSize : Nat
  /-- how many relationships a path may have where nothing else is said -/
  depth : Nat
  /-- how many entities the planner assumes -/
  baseline : { n : Nat // 0 < n }
  address : Address
  logLevel : String
deriving DecidableEq

namespace Settings

/-- A whole number of seconds above zero. -/
def seconds (n : Nat) (pos : 0 < n) : { x : Binary64 // Binary64.zero < x } :=
  ⟨.ofRatio false n 1, Binary64.zero_lt_ofRatio pos⟩

/-- A part of an address, which is a text here. -/
def addressPart : Reader Value := fun raw => (Reader.text raw).map .text

/-- Settings read from a record. -/
def ofRecord (r : Record) : Checked Settings :=
  (fun cacheSeconds cacheEntries querySeconds pageSize depth baseline uri username password
      database logLevel =>
      ⟨cacheSeconds, cacheEntries, querySeconds, pageSize, depth, baseline,
        ⟨uri, username, password, database⟩, logLevel⟩)
    <$> r.withDefault "cache_duration_seconds" (seconds 300 (by decide)) Reader.positive
    <*> r.withDefault "cache_max_entries" ⟨10000, by decide⟩ Reader.positiveNatural
    <*> r.withDefault "query_timeout_seconds" (seconds 30 (by decide)) Reader.positive
    <*> r.withDefault "default_page_size" 100 Reader.natural
    <*> r.withDefault "max_traversal_depth" 5 Reader.natural
    <*> r.withDefault "optimizer_baseline_cardinality" ⟨1000, by decide⟩ Reader.positiveNatural
    <*> r.withDefault "neo4j_uri" Address.local.uri addressPart
    <*> r.withDefault "neo4j_username" Address.local.username addressPart
    <*> r.withDefault "neo4j_password" Address.local.password addressPart
    <*> r.withDefault "neo4j_database" Address.local.database addressPart
    <*> r.withDefault "log_level" "INFO" Reader.text

/-- The names of settings. -/
def names : List String :=
  ["cache_duration_seconds", "cache_max_entries", "query_timeout_seconds", "default_page_size",
    "max_traversal_depth", "optimizer_baseline_cardinality", "neo4j_uri", "neo4j_username",
    "neo4j_password", "neo4j_database", "log_level"]

/-! ## The log level -/

/-- The names of log levels and what they are worth. -/
def logLevels : List (String × Nat) :=
  [("CRITICAL", 50), ("FATAL", 50), ("ERROR", 40), ("WARN", 30), ("WARNING", 30), ("INFO", 20),
    ("DEBUG", 10), ("NOTSET", 0)]

/-- The log level that is meant: the one named, in either case, or else
that of `INFO`. -/
def logLevelValue (s : Settings) : Nat :=
  (logLevels.lookup (String.ofList (Text.upper s.logLevel.toList))).getD 20

end Settings

end KnowledgeGraph
