import KnowledgeGraph.Cache.Call
import KnowledgeGraph.Proofs.Number.Order
import Mathlib.Data.List.Dedup
import Mathlib.Data.List.Perm.Subperm
/-!
# Histories of a cache

A history is a list of calls with the readings of the clock at which they
were made. `ledger` is what a history has written and not cleared or
written over: what a cache without bound and lifetime would hold. It is
read off the history alone, the latest entry last, and calls that only
look leave no mark on it (`ledger_filter_writes`).
-/

namespace KnowledgeGraph

/-- A call and the reading of the clock when it is made. -/
structure TimedCall where
  now : Binary64
  call : CacheCall

namespace TimedCall

/-- What a call stores. One that is refused stores nothing. -/
def written? (x : TimedCall) : Option CacheEntry :=
  match x.call.operation with
  | .ok (.store signature r) => some ⟨signature, r, x.now⟩
  | _ => none

def isClear (x : TimedCall) : Bool :=
  match x.call.operation with
  | .ok .clear => true
  | _ => false

/-- Whether a call stores something or clears the cache. Look-ups and
sweeps do neither. -/
def writes (x : TimedCall) : Bool := x.isClear || x.written?.isSome

variable {x : TimedCall} {e : CacheEntry}

/-- **What is written is what a call stores**, under the signature of its
query and with the reading of the clock. -/
theorem written?_eq_some_iff :
    x.written? = some e ↔
      ∃ q, x.call = .store (some q) (some e.result) ∧ q.signature = .ok e.signature ∧
        e.storedAt = x.now := by
  unfold written?
  constructor
  · intro h
    split at h
    · next signature r hoperation =>
      obtain rfl := Option.some.inj h
      obtain ⟨q, hcall, hq⟩ := CacheCall.operation_eq_store_iff.1 hoperation
      exact ⟨q, hcall, hq, rfl⟩
    · simp at h
  · rintro ⟨q, hcall, hq, hnow⟩
    rw [CacheCall.operation_eq_store_iff.2 ⟨q, hcall, hq⟩, ← hnow]

theorem storedAt_of_written (h : x.written? = some e) : e.storedAt = x.now := by
  obtain ⟨q, -, -, hnow⟩ := written?_eq_some_iff.1 h
  exact hnow

theorem isClear_iff : x.isClear = true ↔ x.call = .clear := by
  rw [← CacheCall.operation_eq_clear_iff, isClear]
  split <;> simp_all

theorem isClear_eq_false_of_written (h : x.written? = some e) : x.isClear = false := by
  obtain ⟨q, hcall, -, -⟩ := written?_eq_some_iff.1 h
  rw [Bool.eq_false_iff, ne_eq, isClear_iff, hcall]
  exact CacheCall.noConfusion

end TimedCall

namespace Cache

/-- The cache after a history. -/
def after (c : Cache) (history : List TimedCall) : Cache :=
  history.foldl (fun c x => (c.answer x.now x.call).2) c

theorem after_concat (c : Cache) (history : List TimedCall) (x : TimedCall) :
    c.after (history ++ [x]) = ((c.after history).answer x.now x.call).2 := by
  rw [after, List.foldl_concat, ← after]

/-- The signatures stored under in a history, as often as they were. -/
def storedUnder (history : List TimedCall) : List String :=
  history.filterMap fun x => x.written?.map CacheEntry.signature

def isCleared (history : List TimedCall) : Bool := history.any TimedCall.isClear

/-- What a history has written, the latest last: an entry stays until its
signature is stored under again, or everything is cleared. -/
def ledger : List TimedCall → List CacheEntry
  | [] => []
  | x :: later =>
    match x.written? with
    | some e =>
      if e.signature ∈ storedUnder later ∨ isCleared later then ledger later
      else e :: ledger later
    | none => ledger later

/-! ## One call more -/

section Entries

variable {entries : List CacheEntry} {e : CacheEntry} {signature : String}

theorem mem_without : e ∈ without signature entries ↔ e ∈ entries ∧ e.signature ≠ signature := by
  simp [without]

/-- Where signatures stand once, at most one entry is left out. -/
theorem length_le_length_without (signature : String)
    (h : (entries.map CacheEntry.signature).Nodup) :
    entries.length ≤ (without signature entries).length + 1 := by
  induction entries with
  | nil => simp
  | cons x rest ih =>
    rw [List.map_cons, List.nodup_cons] at h
    by_cases hx : x.signature = signature
    · have hrest : without signature rest = rest := by
        rw [without, List.filter_eq_self]
        intro y hy
        simp only [ne_eq, decide_eq_true_eq]
        rintro rfl
        exact h.1 (hx ▸ List.mem_map_of_mem hy)
      have hcons : without signature (x :: rest) = without signature rest := by simp [without, hx]
      rw [hcons, hrest, List.length_cons]
    · have hcons : without signature (x :: rest) = x :: without signature rest := by
        simp [without, hx]
      rw [hcons, List.length_cons, List.length_cons]
      exact Nat.succ_le_succ (ih h.2)

/-- The entries that a bound admits are those with fewer after them. -/
theorem mem_admitted {bound : Option ℕ} :
    e ∈ admitted bound entries ↔
      ∃ older newer, entries = older ++ e :: newer ∧ ∀ n, bound = some n → newer.length < n := by
  cases bound with
  | none =>
    simp only [admitted, reduceCtorEq, false_imp_iff, implies_true, and_true]
    exact List.mem_iff_append
  | some n =>
    simp only [admitted, Option.some.injEq, forall_eq']
    constructor
    · intro h
      obtain ⟨left, right, hdrop⟩ := List.mem_iff_append.1 h
      refine ⟨entries.take (entries.length - n) ++ left, right, ?_, ?_⟩
      · rw [List.append_assoc, ← hdrop, List.take_append_drop]
      · have hlength := congrArg List.length hdrop
        simp only [List.length_drop, List.length_append, List.length_cons] at hlength
        omega
    · rintro ⟨older, newer, rfl, hn⟩
      rw [List.drop_append_of_le_length (by simp; omega)]
      simp

/-- What comes after an item in a list comes after it in a sublist that
has it, in part; so a sublist admits no less. -/
theorem mem_admitted_of_sublist {bound : Option ℕ} {part : List CacheEntry}
    (hnodup : entries.Nodup) (hpart : part.Sublist entries) (h : e ∈ admitted bound entries)
    (he : e ∈ part) : e ∈ admitted bound part := by
  obtain ⟨older, newer, rfl, hbound⟩ := mem_admitted.1 h
  obtain ⟨left, right, rfl, hleft, hright⟩ := List.sublist_append_iff.1 hpart
  rw [List.nodup_append, List.nodup_cons] at hnodup
  rcases List.mem_append.1 he with hmem | hmem
  · exact absurd rfl (hnodup.2.2 e (hleft.subset hmem) e (by simp))
  · rcases List.sublist_cons_iff.1 hright with hright | ⟨rest, rfl, hrest⟩
    · exact absurd (hright.subset hmem) hnodup.2.1.1
    · exact mem_admitted.2 ⟨left, rest, rfl, fun n hn =>
        Nat.lt_of_le_of_lt hrest.length_le (hbound n hn)⟩

/-- What is admitted beside a new entry was admitted before it: for the
new entry at most one made room. -/
theorem mem_admitted_of_concat {bound : Option ℕ} {new : CacheEntry}
    (hnodup : (entries.map CacheEntry.signature).Nodup)
    (h : e ∈ admitted bound (without signature entries ++ [new])) (hne : e ≠ new) :
    e ∈ admitted bound entries ∧ e.signature ≠ signature := by
  obtain ⟨older, newer, hsplit, hbound⟩ := mem_admitted.1 h
  rcases List.eq_nil_or_concat' newer with rfl | ⟨newer, last, rfl⟩
  · obtain ⟨-, hlast⟩ := List.append_inj' hsplit rfl
    exact absurd (List.singleton_inj.1 hlast).symm hne
  rw [← List.cons_append, ← List.append_assoc] at hsplit
  obtain ⟨hwithout, -⟩ := List.append_inj' hsplit rfl
  have hmem : e ∈ without signature entries := by
    rw [hwithout]
    simp
  -- where the entry stood before
  obtain ⟨first, second, rfl, -, hsecond⟩ := List.filter_eq_append_iff.1 hwithout
  obtain ⟨skipped, newer', rfl, -, -, hnewer⟩ := List.filter_eq_cons_iff.1 hsecond
  have hrest : (newer'.map CacheEntry.signature).Nodup := by
    refine hnodup.sublist (List.Sublist.map _ ?_)
    exact ((List.sublist_cons_self e newer').trans (List.sublist_append_right skipped _)).trans
      (List.sublist_append_right first _)
  have hroom := length_le_length_without signature hrest
  refine ⟨mem_admitted.2 ⟨first ++ skipped, newer', (List.append_assoc ..).symm, ?_⟩,
    (mem_without.1 hmem).2⟩
  intro n hn
  have hlength := hbound n hn
  rw [without, hnewer] at hroom
  rw [List.length_append, List.length_singleton] at hlength
  omega

end Entries

theorem storedUnder_append (first later : List TimedCall) :
    storedUnder (first ++ later) = storedUnder first ++ storedUnder later :=
  List.filterMap_append

/-- **A call that stores makes its entry the latest**, in the place of
any under its signature. -/
theorem ledger_concat_of_written (history : List TimedCall) {x : TimedCall} {e : CacheEntry}
    (h : x.written? = some e) :
    ledger (history ++ [x]) = without e.signature (ledger history) ++ [e] := by
  have hclear := x.isClear_eq_false_of_written h
  induction history with
  | nil => simp [ledger, h, without, storedUnder, isCleared]
  | cons y rest ih =>
    rw [List.cons_append, ledger, ledger]
    cases hy : y.written? with
    | none => exact ih
    | some d =>
      have hsame : isCleared (rest ++ [x]) = isCleared rest := by
        simp [isCleared, hclear]
      have hunder : storedUnder (rest ++ [x]) = storedUnder rest ++ [e.signature] := by
        rw [storedUnder_append]
        simp [storedUnder, h]
      simp only [hsame, hunder, List.mem_append, List.mem_singleton, ih]
      by_cases hkept : d.signature ∈ storedUnder rest ∨ isCleared rest
      · rw [if_pos hkept, if_pos (hkept.imp_left Or.inl)]
      · rw [if_neg hkept]
        by_cases hd : d.signature = e.signature
        · rw [if_pos (Or.inl (Or.inr hd))]
          simp [without, hd]
        · rw [if_neg (by simp_all)]
          simp [without, hd]

theorem ledger_concat_of_isClear (history : List TimedCall) {x : TimedCall} (h : x.isClear) :
    ledger (history ++ [x]) = [] := by
  have hentry : x.written? = none := by
    cases hx : x.written? with
    | none => rfl
    | some e => simp [x.isClear_eq_false_of_written hx] at h
  induction history with
  | nil => simp [ledger, hentry]
  | cons y rest ih =>
    have hcleared : isCleared (rest ++ [x]) = true := by simp [isCleared, h]
    rw [List.cons_append, ledger]
    cases y.written? with
    | none => exact ih
    | some d => simp only [hcleared, or_true, if_true, ih]

/-- Calls that do not write leave no mark. -/
theorem ledger_filter_writes (history : List TimedCall) :
    ledger (history.filter TimedCall.writes) = ledger history := by
  have hunder : ∀ l : List TimedCall, storedUnder (l.filter TimedCall.writes) = storedUnder l := by
    intro l
    rw [storedUnder, List.filterMap_filter, storedUnder]
    congr 1
    funext x
    cases hx : x.written? <;> simp [TimedCall.writes, hx]
  have hclear : ∀ l : List TimedCall, isCleared (l.filter TimedCall.writes) = isCleared l := by
    intro l
    rw [isCleared, List.any_filter, isCleared]
    congr 1
    funext x
    cases hx : x.isClear <;> simp [TimedCall.writes, hx]
  induction history with
  | nil => rfl
  | cons x later ih =>
    by_cases hx : x.writes
    · rw [List.filter_cons_of_pos hx, ledger, ledger, hunder, hclear, ih]
    · rw [List.filter_cons_of_neg hx, ih, ledger]
      have hentry : x.written? = none := by
        simp only [TimedCall.writes, Bool.or_eq_true, not_or, Option.not_isSome_iff_eq_none] at hx
        exact hx.2
      rw [hentry]

theorem ledger_concat_of_not_writes (history : List TimedCall) {x : TimedCall}
    (h : x.writes = false) : ledger (history ++ [x]) = ledger history := by
  rw [← ledger_filter_writes, List.filter_append, List.filter_singleton, h, cond_false,
    List.append_nil, ledger_filter_writes]

/-! ## What stands in the ledger -/

theorem mem_storedUnder_of_mem_ledger {history : List TimedCall} {e : CacheEntry}
    (h : e ∈ ledger history) : e.signature ∈ storedUnder history := by
  induction history with
  | nil => simp [ledger] at h
  | cons x later ih =>
    have hlater : storedUnder later ⊆ storedUnder (x :: later) := by
      rw [← List.singleton_append, storedUnder_append]
      exact List.subset_append_right _ _
    rw [ledger] at h
    cases hx : x.written? with
    | none =>
      rw [hx] at h
      exact hlater (ih h)
    | some d =>
      simp only [hx] at h
      split at h
      · exact hlater (ih h)
      · rcases List.mem_cons.1 h with rfl | h
        · simp [storedUnder, hx]
        · exact hlater (ih h)

/-- No signature stands twice in a ledger. -/
theorem nodup_ledger (history : List TimedCall) :
    ((ledger history).map CacheEntry.signature).Nodup := by
  induction history with
  | nil => exact List.nodup_nil
  | cons x later ih =>
    rw [ledger]
    cases x.written? with
    | none => exact ih
    | some d =>
      dsimp only
      split
      · exact ih
      · rename_i hd
        rw [List.map_cons, List.nodup_cons]
        refine ⟨fun hmem => hd (Or.inl ?_), ih⟩
        obtain ⟨e, he, hsame⟩ := List.mem_map.1 hmem
        exact hsame ▸ mem_storedUnder_of_mem_ledger he

/-- The entries stand in the order of the calls that stored them, with
the readings of those calls. -/
theorem storedAt_ledger_sublist (history : List TimedCall) :
    ((ledger history).map CacheEntry.storedAt).Sublist (history.map TimedCall.now) := by
  induction history with
  | nil => exact List.Sublist.refl _
  | cons x later ih =>
    rw [ledger, List.map_cons]
    cases hx : x.written? with
    | none => exact ih.cons _
    | some d =>
      dsimp only
      split
      · exact ih.cons _
      · rw [List.map_cons, TimedCall.storedAt_of_written hx]
        exact ih.cons_cons _

end Cache

end KnowledgeGraph
