import KnowledgeGraph.Database.Address
import KnowledgeGraph.Fault.Basic
/-!
# Connections

A connection holds at most one driver of the database at a time. What
goes on at the database is told to it: whether a driver reached it, and
what a statement came to. The faults of the database's own are turned
into failures of the repository; all others pass.
-/

namespace KnowledgeGraph

structure Connection where
  address : Address
  /-- the driver held, by its number among all that were made -/
  driver : Option Nat
  /-- how many drivers were made -/
  made : Nat
deriving DecidableEq

namespace Connection

/-- What a connection does to the database. -/
inductive Event where
  /-- makes a driver -/
  | made (driver : Nat) (uri username password : Value)
  /-- has the driver reach the database -/
  | verified
  /-- opens a session on a database -/
  | session (database : Value)
  | ran (statement parameters : Value)
  | sessionEnded
  | closed (driver : Nat)
deriving DecidableEq

/-- What an operation did, how it ended, and the connection after it. -/
structure Step (α : Type) where
  events : List Event
  outcome : Except Fault α
  after : Connection

/-- A connection without a driver. -/
def ofAddress (address : Address) : Connection := ⟨address, none, 0⟩

def isConnected (c : Connection) : Bool := c.driver.isSome

/-! ## Failures -/

def uriDetail (c : Connection) : String × Value := ("uri", c.address.uri)

/-- The failure of a database that cannot be reached. -/
def unreachable (c : Connection) : Fault :=
  .failed (.repository (.text s!"Neo4j unavailable at {c.address.uri.words}")
    (.map [c.uriDetail]) .repositoryUnavailable)

/-- The failure of a statement without a driver. -/
def notConnected : Fault :=
  .failed (.repository (.text "Not connected. Call connect() first.") .null
    .repositoryUnavailable)

/-- The failure of a connection that broke. -/
def lost (c : Connection) : Fault :=
  .failed (.repository (.text "Neo4j connection lost") (.map [c.uriDetail])
    .repositoryUnavailable)

/-- The failure of a statement that the database refused. -/
def refused (c : Connection) (code : Value) (text : String) : Fault :=
  .failed (.repository (.text s!"Neo4j query failed: {text}")
    (.map [c.uriDetail, ("neo4j_code", code)]) .repositoryReadFailed)

/-- A fault during a statement, as the repository reports it. A refusal
that says no text cannot be reported. -/
def report (c : Connection) : Fault → Fault
  | .database (.refused code (.text text)) => c.refused code text
  | .database (.refused _ _) => .wrongArguments
  | .database (.unavailable _) | .database (.sessionExpired _) => c.lost
  | fault => fault

/-! ## Operations -/

/-- Closes the driver, if one is held. -/
def close (c : Connection) : Step Unit :=
  match c.driver with
  | some driver => ⟨[.closed driver], .ok (), { c with driver := none }⟩
  | none => ⟨[], .ok (), c⟩

/-- Makes a driver and holds it from then on, in place of any held
before; only a database that is unavailable has it closed again. -/
def connect (c : Connection) (reached : Except Fault Unit) : Step Unit :=
  let holding := { c with driver := some c.made, made := c.made + 1 }
  let reaching : List Event :=
    [.made c.made c.address.uri c.address.username c.address.password, .verified]
  match reached with
  | .ok () => ⟨reaching, .ok (), holding⟩
  | .error (.database (.unavailable _)) =>
    ⟨reaching ++ holding.close.events, .error c.unreachable, holding.close.after⟩
  -- whatever else went wrong, the driver is held on to
  | .error fault => ⟨reaching, .error fault, holding⟩

/-- Parameters as they are sent: those that say nothing are an empty
map. -/
def sentParameters (parameters : Value) : Value := if parameters.isVoid then .map [] else parameters

/-- Runs a statement in a session of its own. What came of it, an answer
or a fault, is reported after the session ended. -/
def run {Answer : Type} (c : Connection) (statement parameters : Value)
    (came : Except Fault Answer) : Step Answer :=
  if c.isConnected then
    ⟨[.session c.address.database, .ran statement (sentParameters parameters), .sessionEnded],
      came.mapError c.report, c⟩
  else ⟨[], .error notConnected, c⟩

/-- Connects, runs a statement, and closes whatever came of it. Without a
connection nothing is run or closed. -/
def runOnce {Answer : Type} (c : Connection) (reached : Except Fault Unit)
    (statement parameters : Value) (came : Except Fault Answer) : Step Answer :=
  let connected := c.connect reached
  match connected.outcome with
  | .error fault => ⟨connected.events, .error fault, connected.after⟩
  | .ok () =>
    let ran := connected.after.run statement parameters came
    let closed := ran.after.close
    ⟨connected.events ++ ran.events ++ closed.events, ran.outcome, closed.after⟩

end Connection

end KnowledgeGraph
