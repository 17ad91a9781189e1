import KnowledgeGraph.Input.Argument
import KnowledgeGraph.Query.Result
/-!
# The result cache

Results are kept under the signatures of their queries for a set time.
Storing makes an entry the newest; where there is a bound on entries the
oldest go first. An entry that has expired goes when it is looked up, or
in a sweep. The clock is the caller's: every operation that needs the
time is told it.
-/

namespace KnowledgeGraph

/-- A result under a signature. -/
structure CacheEntry where
  signature : String
  result : QueryResult
  storedAt : Binary64
deriving DecidableEq

structure Cache where
  /-- in seconds; what is not a number never passes -/
  lifetime : Binary64
  maxEntries : Option Nat
  /-- the oldest first -/
  entries : List CacheEntry
  hits : Nat
  misses : Nat
  lifetime_not_le : ¬ lifetime ≤ Binary64.zero

/-- What a cache counted. -/
structure CacheStatistics where
  hits : Nat
  misses : Nat
  requests : Nat
  hitRate : Binary64
  size : Nat
deriving DecidableEq

namespace Cache

/-! ## Opening -/

/-- The fault of a lifetime that is missing or not positive. -/
def lifetimeFault : Fault :=
  .argument "cache_duration_seconds" (some "Cache duration must be greater than zero")

/-- The fault of a bound that is zero or below it. -/
def boundFault : Fault := .argument "max_entries" (some "max_entries must be greater than zero")

/-- A lifetime in seconds. An integer may be beyond the range of
doubles. -/
def readLifetime (seconds : Value.Number) : Except Fault { x : Binary64 // ¬ x ≤ Binary64.zero } :=
  (Argument.toDouble seconds).bind fun x =>
    if h : x ≤ Binary64.zero then .error lifetimeFault else .ok ⟨x, h⟩

/-- How many entries a bound admits: as many as are not more than it. An
infinite bound, or one that is not a number, bounds nothing. -/
def admittedBy : Value.Number → Option Nat
  | .int n => some n.toNat
  | .num x => x.floor?.map Int.toNat

/-- A bound on the number of entries, if there is one. -/
def readBound : Value → Except Fault (Option Nat)
  | .null => .ok none
  | bound =>
    (Argument.number bound).bind fun n =>
      if n.isNonPositive then .error boundFault else .ok (admittedBy n)

/-- A positive number of seconds, which has to be there. -/
def readSeconds : Value → Except Fault Value.Number
  | .null => .error lifetimeFault
  | seconds =>
    (Argument.number seconds).bind fun n =>
      if n.isNonPositive then .error lifetimeFault else .ok n

/-- An empty cache. -/
def open? (seconds maxEntries : Value) : Except Fault Cache := do
  let seconds ← readSeconds seconds
  let bound ← readBound maxEntries
  -- a number out of range is refused only after the bound
  let lifetime ← readLifetime seconds
  return ⟨lifetime.1, bound, [], 0, 0, lifetime.2⟩

/-- A cache that keeps results for five minutes. -/
def default : Cache := ⟨.ofRatio false 300 1, none, [], 0, 0, by decide +kernel⟩

/-! ## Entries -/

def size (c : Cache) : Nat := c.entries.length

/-- Whether an entry has been kept for its lifetime. -/
def expired (c : Cache) (now : Binary64) (e : CacheEntry) : Bool :=
  decide (c.lifetime ≤ now - e.storedAt)

/-- The entries but the one under a signature. -/
def without (signature : String) (entries : List CacheEntry) : List CacheEntry :=
  entries.filter fun e => e.signature ≠ signature

/-- The entry under a signature. -/
def find? (c : Cache) (signature : String) : Option CacheEntry :=
  c.entries.find? fun e => e.signature = signature

/-- The entry under a signature, unless it has expired. -/
def live? (c : Cache) (now : Binary64) (signature : String) : Option CacheEntry :=
  (c.find? signature).filter fun e => !c.expired now e

/-! ## Operations -/

/-- The result kept under a signature, flagged as cached. A look-up counts
as a hit or a miss, and one that finds its entry expired removes it. -/
def lookup (c : Cache) (now : Binary64) (signature : String) : Option QueryResult × Cache :=
  match c.live? now signature with
  | some e => (some { e.result with fromCache := true }, { c with hits := c.hits + 1 })
  | none => (none, { c with entries := without signature c.entries, misses := c.misses + 1 })

/-- The newest entries that a bound admits. -/
def admitted (bound : Option Nat) (entries : List CacheEntry) : List CacheEntry :=
  match bound with
  | some n => entries.drop (entries.length - n)
  | none => entries

/-- The cache with a result as its newest entry. -/
def store (c : Cache) (now : Binary64) (signature : String) (r : QueryResult) : Cache :=
  let newest : CacheEntry := ⟨signature, r, now⟩
  { c with entries := admitted c.maxEntries (without signature c.entries ++ [newest]) }

/-- The cache without entries; its counts stay. -/
def clear (c : Cache) : Cache := { c with entries := [] }

/-- The cache without expired entries, and how many there were. -/
def sweep (c : Cache) (now : Binary64) : Nat × Cache :=
  ((c.entries.filter (c.expired now)).length,
    { c with entries := c.entries.filter fun e => !c.expired now e })

/-- Hits over look-ups; zero before the first. -/
def hitRate (c : Cache) : Binary64 :=
  if c.hits + c.misses = 0 then .zero else .ofRatio false c.hits (c.hits + c.misses)

def statistics (c : Cache) : CacheStatistics :=
  ⟨c.hits, c.misses, c.hits + c.misses, c.hitRate, c.size⟩

end Cache

end KnowledgeGraph
