import KnowledgeGraph.Cache.Basic
import KnowledgeGraph.Query.Basic
/-!
# Calls to a cache

What a caller can ask of a cache, as one type, so that a history is a
list of calls with the readings of the clock. An argument may be missing,
or be a query without a signature. Such a call asks for no operation and
is refused before the cache is touched (`answer_of_refused`).
-/

namespace KnowledgeGraph

inductive CacheCall where
  | lookup (query : Option Query)
  | store (query : Option Query) (result : Option QueryResult)
  | clear
  | sweep
  | statistics

/-- What a call asks for, once its arguments are in order. -/
inductive CacheOperation where
  | lookup (signature : String)
  | store (signature : String) (result : QueryResult)
  | clear
  | sweep
  | statistics

inductive CacheReply where
  | done
  /-- what was kept for a query, if anything was -/
  | found (result : Option QueryResult)
  /-- how many entries had expired -/
  | removed (count : Nat)
  | counted (statistics : CacheStatistics)

/-- The operation that a call asks for. Of two missing arguments the
query is the one reported. -/
def CacheCall.operation : CacheCall → Except Fault CacheOperation
  | .lookup query => do
    let query ← Fault.require "query" query
    return .lookup (← query.signature)
  | .store query result => do
    let query ← Fault.require "query" query
    let result ← Fault.require "result" result
    return .store (← query.signature) result
  | .clear => .ok .clear
  | .sweep => .ok .sweep
  | .statistics => .ok .statistics

namespace CacheCall

variable {call : CacheCall} {signature : String}

@[simp] theorem operation_lookup (q : Query) :
    (lookup (some q)).operation = q.signature.map .lookup := by
  simp only [operation, Fault.require, bind, Except.bind]
  cases q.signature <;> rfl

@[simp] theorem operation_store (q : Query) (r : QueryResult) :
    (store (some q) (some r)).operation = q.signature.map fun signature => .store signature r := by
  simp only [operation, Fault.require, bind, Except.bind]
  cases q.signature <;> rfl

/-- **What a call asks for**, by the kinds of operations. -/
theorem operation_cases {operation : CacheOperation} (h : call.operation = .ok operation) :
    (∃ q signature, call = lookup (some q) ∧ q.signature = .ok signature ∧
        operation = .lookup signature) ∨
      (∃ q r signature, call = store (some q) (some r) ∧ q.signature = .ok signature ∧
        operation = .store signature r) ∨
      (call = clear ∧ operation = .clear) ∨ (call = sweep ∧ operation = .sweep) ∨
        (call = statistics ∧ operation = .statistics) := by
  match call with
  | lookup (some q) =>
    rw [operation_lookup] at h
    cases hq : q.signature with
    | error f =>
      rw [hq] at h
      cases h
    | ok signature =>
      rw [hq] at h
      exact .inl ⟨q, signature, rfl, hq, (Except.ok.inj h).symm⟩
  | store (some q) (some r) =>
    rw [operation_store] at h
    cases hq : q.signature with
    | error f =>
      rw [hq] at h
      cases h
    | ok signature =>
      rw [hq] at h
      exact .inr (.inl ⟨q, r, signature, rfl, hq, (Except.ok.inj h).symm⟩)
  | clear => exact .inr (.inr (.inl ⟨rfl, (Except.ok.inj h).symm⟩))
  | sweep => exact .inr (.inr (.inr (.inl ⟨rfl, (Except.ok.inj h).symm⟩)))
  | statistics => exact .inr (.inr (.inr (.inr ⟨rfl, (Except.ok.inj h).symm⟩)))
  | lookup none | store none _ | store (some _) none => cases h

/-- What is stored is the result given, under the signature of the query
given. -/
theorem operation_eq_store_iff {r : QueryResult} :
    call.operation = .ok (.store signature r) ↔
      ∃ q, call = .store (some q) (some r) ∧ q.signature = .ok signature := by
  constructor
  · intro h
    obtain ⟨_, _, _, _, ⟨⟩⟩ | ⟨q, _, _, hcall, hq, ⟨⟩⟩ | ⟨_, ⟨⟩⟩ | ⟨_, ⟨⟩⟩ | ⟨_, ⟨⟩⟩ :=
      operation_cases h
    exact ⟨q, hcall, hq⟩
  · rintro ⟨q, rfl, hq⟩
    rw [operation_store, hq]
    rfl

theorem operation_eq_clear_iff : call.operation = .ok .clear ↔ call = .clear := by
  constructor
  · intro h
    obtain ⟨_, _, _, _, ⟨⟩⟩ | ⟨_, _, _, _, _, ⟨⟩⟩ | ⟨hcall, _⟩ | ⟨_, ⟨⟩⟩ | ⟨_, ⟨⟩⟩ :=
      operation_cases h
    exact hcall
  · rintro rfl
    rfl

end CacheCall

namespace Cache

/-- What an operation comes to, and the cache after it. -/
def perform (c : Cache) (now : Binary64) : CacheOperation → CacheReply × Cache
  | .lookup signature => (.found (c.lookup now signature).1, (c.lookup now signature).2)
  | .store signature r => (.done, c.store now signature r)
  | .clear => (.done, c.clear)
  | .sweep => (.removed (c.sweep now).1, (c.sweep now).2)
  | .statistics => (.counted c.statistics, c)

/-- What a call is answered, and the cache after it. -/
def answer (c : Cache) (now : Binary64) (call : CacheCall) : Except Fault CacheReply × Cache :=
  match call.operation with
  | .ok operation => (.ok (c.perform now operation).1, (c.perform now operation).2)
  | .error f => (.error f, c)

variable {c : Cache} {now : Binary64} {call : CacheCall}

theorem answer_of_operation {operation : CacheOperation} (h : call.operation = .ok operation) :
    c.answer now call = (.ok (c.perform now operation).1, (c.perform now operation).2) := by
  rw [answer, h]

/-- A call that is refused leaves the cache as it is. -/
theorem answer_of_refused {f : Fault} (h : call.operation = .error f) :
    c.answer now call = (.error f, c) := by
  rw [answer, h]

end Cache

end KnowledgeGraph
