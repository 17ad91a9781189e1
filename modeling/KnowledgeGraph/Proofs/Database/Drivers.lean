import KnowledgeGraph.Database.Connection
import Mathlib.Data.List.Induction
import Mathlib.Data.List.Nodup
/-!
# Drivers that stay open

A connection is connected, run and closed in any order, whatever the
database does about it. By then the drivers that are open are the one
held and those held before that a call to connect took the place of; so
a driver is lost exactly by connecting twice without closing in between
(`unclosed_log`).

A connect that failed may be the first of the two. Unless the database
was unavailable its driver is held on to, and statements are let
through.
-/

namespace KnowledgeGraph

namespace Connection

/-- A call to a connection, with what the database does about it. -/
inductive Call (Answer : Type) where
  | connect (reached : Except Fault Unit)
  | run (statement parameters : Value) (came : Except Fault Answer)
  | close

variable {Answer : Type} {c : Connection} {events : List Event} {replaced : List ℕ}

/-! ## Calls one after the other -/

/-- What a call does to the database. -/
def eventsOf (c : Connection) : Call Answer → List Event
  | .connect reached => (c.connect reached).events
  | .run statement parameters came => (c.run statement parameters came).events
  | .close => c.close.events

/-- The connection after a call. -/
def called (c : Connection) : Call Answer → Connection
  | .connect reached => (c.connect reached).after
  | .run statement parameters came => (c.run statement parameters came).after
  | .close => c.close.after

/-- The driver whose place a call takes: the one that is held when another
is made. -/
def replacedBy (c : Connection) : Call Answer → List ℕ
  | .connect _ => c.driver.toList
  | .run .. | .close => []

/-- The connection after a sequence of calls. -/
def after (c : Connection) (calls : List (Call Answer)) : Connection := calls.foldl called c

/-- What there is to say of each call of a sequence, given the connection
at that time. -/
def gathered {β : Type} (f : Connection → Call Answer → List β) (c : Connection) :
    List (Call Answer) → List β
  | [] => []
  | call :: later => f c call ++ gathered f (c.called call) later

/-- What a sequence of calls does to the database. -/
def log (c : Connection) (calls : List (Call Answer)) : List Event := gathered eventsOf c calls

/-- The drivers whose place another one took. -/
def replacedIn (c : Connection) (calls : List (Call Answer)) : List ℕ := gathered replacedBy c calls

theorem after_concat (c : Connection) (calls : List (Call Answer)) (call : Call Answer) :
    c.after (calls ++ [call]) = (c.after calls).called call :=
  List.foldl_append

theorem gathered_concat {β : Type} (f : Connection → Call Answer → List β) (c : Connection)
    (calls : List (Call Answer)) (call : Call Answer) :
    gathered f c (calls ++ [call]) = gathered f c calls ++ f (c.after calls) call := by
  induction calls generalizing c with
  | nil => exact List.append_nil _
  | cons first later ih =>
    rw [List.cons_append, gathered, gathered, ih, List.append_assoc]
    rfl

/-- A connect fails whenever the database was not reached. -/
theorem exists_outcome_connect_error (c : Connection) (fault : Fault) :
    ∃ raised, (c.connect (.error fault)).outcome = .error raised := by
  unfold Connection.connect
  dsimp only
  split
  · rename_i heq
    cases heq
  · exact ⟨_, rfl⟩
  · exact ⟨_, rfl⟩

/-- To use a connection once is to connect, run and close, and where the
connect fails that is all: nothing is closed then. -/
theorem runOnce_eq_calls (c : Connection) (reached : Except Fault Unit)
    (statement parameters : Value) (came : Except Fault Answer) :
    let once := c.runOnce reached statement parameters came
    let calls : List (Call Answer) :=
      .connect reached :: if reached.isOk then [.run statement parameters came, .close] else []
    once.events = c.log calls ∧ once.after = c.after calls := by
  cases reached with
  | ok u =>
    refine ⟨?_, rfl⟩
    simp [runOnce, log, gathered, eventsOf, called, Connection.connect, Except.isOk, Except.toBool]
  | error fault =>
    obtain ⟨raised, hraised⟩ := exists_outcome_connect_error c fault
    simp [runOnce, log, after, gathered, eventsOf, called, hraised, Except.isOk, Except.toBool]

/-! ## What is open -/

/-- The driver that an event makes. -/
def Event.made? : Event → Option ℕ
  | .made driver .. => some driver
  | _ => none

/-- The driver that an event closes. -/
def Event.closed? : Event → Option ℕ
  | .closed driver => some driver
  | _ => none

/-- The drivers that were made, in their order. -/
def makes (events : List Event) : List ℕ := events.filterMap Event.made?

/-- The drivers that were closed, in the order of that. -/
def closes (events : List Event) : List ℕ := events.filterMap Event.closed?

/-- The drivers that were made and not closed. -/
def unclosed (events : List Event) : List ℕ := (makes events).filter fun d => d ∉ closes events

theorem makes_append (events later : List Event) :
    makes (events ++ later) = makes events ++ makes later :=
  List.filterMap_append

theorem closes_append (events later : List Event) :
    closes (events ++ later) = closes events ++ closes later :=
  List.filterMap_append

/-- What every call keeps. Drivers are numbered as they are made, and open
are those whose place another one took and the one held. -/
structure Accounts (c : Connection) (events : List Event) (replaced : List ℕ) : Prop where
  made : makes events = List.range c.made
  closed : ∀ d ∈ closes events, d < c.made
  unclosed : unclosed events = replaced ++ c.driver.toList

theorem accounts_ofAddress (address : Address) : (ofAddress address).Accounts [] [] :=
  ⟨rfl, fun _ hd => absurd hd List.not_mem_nil, rfl⟩

/-- No driver is open twice … -/
theorem Accounts.nodup (h : c.Accounts events replaced) :
    (replaced ++ c.driver.toList).Nodup := by
  rw [← h.unclosed, Connection.unclosed, h.made]
  exact List.nodup_range.filter _

/-- … and none before it was made. -/
theorem Accounts.lt_made (h : c.Accounts events replaced) {d : ℕ}
    (hd : d ∈ replaced ++ c.driver.toList) : d < c.made := by
  rw [← h.unclosed, Connection.unclosed, h.made] at hd
  exact List.mem_range.1 (List.mem_filter.1 hd).1

/-- Events that make no driver and close none keep the accounts. -/
theorem Accounts.quiet (h : c.Accounts events replaced) {later : List Event}
    (hmade : makes later = []) (hclosed : closes later = []) :
    c.Accounts (events ++ later) replaced := by
  have hmakes : makes (events ++ later) = makes events := by
    rw [makes_append, hmade, List.append_nil]
  have hcloses : closes (events ++ later) = closes events := by
    rw [closes_append, hclosed, List.append_nil]
  refine ⟨?_, ?_, ?_⟩
  · rw [hmakes, h.made]
  · rw [hcloses]
    exact h.closed
  · rw [Connection.unclosed, hmakes, hcloses]
    exact h.unclosed

theorem Accounts.run (h : c.Accounts events replaced) (statement parameters : Value)
    (came : Except Fault Answer) :
    (c.run statement parameters came).after.Accounts
      (events ++ (c.run statement parameters came).events) replaced := by
  unfold Connection.run
  split
  · exact h.quiet rfl rfl
  · exact h.quiet rfl rfl

/-- To close closes the driver held, and no other. -/
theorem Accounts.close (h : c.Accounts events replaced) :
    c.close.after.Accounts (events ++ c.close.events) replaced := by
  unfold Connection.close
  cases hdriver : c.driver with
  | none => exact h.quiet rfl rfl
  | some d =>
    have hnodup := h.nodup
    have hunclosed := h.unclosed
    rw [hdriver, Option.toList_some] at hnodup hunclosed
    have hnew : ∀ x ∈ replaced, x ≠ d := fun x hx =>
      (List.nodup_append.1 hnodup).2.2 x hx d (List.mem_singleton_self d)
    have hmade : makes (events ++ [.closed d]) = makes events := by
      rw [makes_append]
      exact List.append_nil _
    have hclosed : closes (events ++ [.closed d]) = closes events ++ [d] := closes_append ..
    refine ⟨?_, ?_, ?_⟩
    · rw [hmade, h.made]
    · rw [hclosed, List.forall_mem_append, List.forall_mem_singleton]
      exact ⟨h.closed, h.lt_made (by simp [hdriver])⟩
    · have hopen : Connection.unclosed (events ++ [.closed d]) =
          (Connection.unclosed events).filter (· ≠ d) := by
        rw [Connection.unclosed, Connection.unclosed, hmade, hclosed, List.filter_filter]
        refine List.filter_congr fun x _ => ?_
        simp [and_comm]
      rw [hopen, hunclosed, List.filter_append]
      simpa using hnew

/-- To make a driver takes the place of the one held, which stays open. -/
theorem Accounts.hold (h : c.Accounts events replaced) (uri username password : Value) :
    Accounts { c with driver := some c.made, made := c.made + 1 }
      (events ++ [.made c.made uri username password, .verified])
      (replaced ++ c.driver.toList) := by
  have hmade : makes (events ++ [.made c.made uri username password, .verified]) =
      makes events ++ [c.made] := makes_append ..
  have hclosed : closes (events ++ [.made c.made uri username password, .verified]) =
      closes events := by
    rw [closes_append]
    exact List.append_nil _
  have hnew : c.made ∉ closes events := fun hmem => Nat.lt_irrefl _ (h.closed _ hmem)
  refine ⟨?_, ?_, ?_⟩
  · rw [hmade, h.made, List.range_succ]
  · rw [hclosed]
    intro d hd
    exact Nat.lt_succ_of_lt (h.closed d hd)
  · rw [Connection.unclosed, hmade, hclosed, List.filter_append, ← Connection.unclosed, h.unclosed]
    simp [hnew]

/-- **One call**, whatever the database does about it. -/
theorem Accounts.called (h : c.Accounts events replaced) (call : Call Answer) :
    (c.called call).Accounts (events ++ c.eventsOf call) (replaced ++ c.replacedBy call) := by
  match call with
  | .close =>
    rw [replacedBy, List.append_nil]
    exact h.close
  | .run statement parameters came =>
    rw [replacedBy, List.append_nil]
    exact h.run statement parameters came
  | .connect reached =>
    have hholding := h.hold c.address.uri c.address.username c.address.password
    show (c.connect reached).after.Accounts (events ++ (c.connect reached).events)
      (replaced ++ c.driver.toList)
    unfold Connection.connect
    dsimp only
    split
    · exact hholding
    · rw [← List.append_assoc]
      exact hholding.close
    · exact hholding

/-- **Every sequence of calls.** -/
theorem accounts_log (address : Address) (calls : List (Call Answer)) :
    ((ofAddress address).after calls).Accounts ((ofAddress address).log calls)
      ((ofAddress address).replacedIn calls) := by
  induction calls using List.reverseRecOn with
  | nil => exact accounts_ofAddress address
  | append_singleton rest call ih =>
    rw [after_concat, log, replacedIn, gathered_concat, gathered_concat]
    exact ih.called call

/-! ## Connections that refuse -/

/-- Whether a connection refuses to run anything. -/
def Refuses (Answer : Type) (c : Connection) : Prop :=
  ∀ (statement parameters : Value) (came : Except Fault Answer),
    c.run statement parameters came = ⟨[], .error notConnected, c⟩

theorem refuses_iff : c.Refuses Answer ↔ c.driver = none := by
  constructor
  · intro h
    have hrefused := congrArg Step.events (h .null .null (.error notConnected))
    cases hdriver : c.driver with
    | none => rfl
    | some d => simp [Connection.run, isConnected, hdriver] at hrefused
  · intro h statement parameters came
    simp [Connection.run, isConnected, h]

theorem driver_close (c : Connection) : c.close.after.driver = none := by
  unfold Connection.close
  split
  · rfl
  · assumption

/-- A connect that failed leaves no driver behind if the database was
unavailable, and only then. -/
theorem driver_connect_error_eq_none_iff (c : Connection) (fault : Fault) :
    (c.connect (.error fault)).after.driver = none ↔
      ∃ text, fault = .database (.unavailable text) := by
  constructor
  · intro h
    unfold Connection.connect at h
    dsimp only at h
    split at h
    · rename_i heq
      cases heq
    · rename_i text heq
      exact ⟨text, Except.error.inj heq⟩
    · simp at h
  · rintro ⟨text, rfl⟩
    exact driver_close _

/-! ## The drivers of a connection -/

/-- **The drivers that stay open** are, after any calls and whatever came
of them, those held when another was made, and the one held. A failed
connect leaves none held, so that statements are refused as they are
after closing, if and only if the database was unavailable. -/
theorem unclosed_log (address : Address) (calls : List (Call Answer)) :
    let c := (ofAddress address).after calls
    unclosed ((ofAddress address).log calls) =
        (ofAddress address).replacedIn calls ++ c.driver.toList ∧
      ((ofAddress address).replacedIn calls ++ c.driver.toList).Nodup ∧
      c.close.after.Refuses Answer ∧
      ∀ fault, (∃ raised, (c.connect (.error fault)).outcome = .error raised) ∧
        ((c.connect (.error fault)).after.Refuses Answer ↔
          ∃ text, fault = .database (.unavailable text)) := by
  intro c
  have haccounts := accounts_log address calls
  refine ⟨haccounts.unclosed, haccounts.nodup, refuses_iff.2 (driver_close c), fun fault => ?_⟩
  rw [refuses_iff]
  exact ⟨exists_outcome_connect_error c fault, driver_connect_error_eq_none_iff c fault⟩

/-- An account that the server refuses leaves the driver held and lets
statements through; to connect again then leaves two drivers open. -/
theorem unclosed_unauthorized :
    let fault : Fault :=
      .database
        (.refused (.text "Neo.ClientError.Security.Unauthorized")
          (.text "The client is unauthorized"))
    let c := ofAddress .local
    let failed := c.connect (.error fault)
    let again : List (Call Unit) := [.connect (.error fault), .connect (.ok ())]
    failed.outcome = .error fault ∧ failed.after.driver = some 0 ∧
      ¬ failed.after.Refuses Unit ∧ (c.after again).driver = some 1 ∧
      unclosed (c.log again) = [0, 1] := by
  intro fault c failed again
  have hheld : failed.after.driver = some 0 := rfl
  refine ⟨rfl, hheld, ?_, rfl, rfl⟩
  rw [refuses_iff, hheld]
  exact Option.some_ne_none 0

end Connection

end KnowledgeGraph
