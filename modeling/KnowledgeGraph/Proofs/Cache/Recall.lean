import KnowledgeGraph.Proofs.Cache.History
import KnowledgeGraph.Proofs.Query.Signature
import Mathlib.Data.List.Induction
/-!
# What a cache recalls

A look-up is answered by the history alone: by the last call that stored
under the query's signature, unless the cache was cleared since, or the
entry's lifetime has passed, or as many other signatures as the bound
admits were stored under since (`answer_lookup_iff_recalls`).

A cache holds less than its ledger, and what it holds may have expired
and still take up room. `Holds` is what every call keeps nonetheless: of
the entries that the bound admits no live one is missing. The newer of
two entries expires later, so an entry pushed out by newer ones is not
replaced by one that the ledger would not have admitted.
-/

namespace KnowledgeGraph

namespace Cache

variable {c c' : Cache} {now now' : Binary64} {e e' : CacheEntry} {written : List CacheEntry}
  {history : List TimedCall}

/-! ## The clock -/

/-- The clock is never set back over some calls up to a moment, and reads
a finite number of seconds. -/
structure Steady (history : List TimedCall) (now : Binary64) : Prop where
  forward : (history.map TimedCall.now ++ [now]).Pairwise (· ≤ ·)
  finite : ∀ t ∈ history.map TimedCall.now ++ [now], t.isFinite = true

/-- Entries carry finite readings, not after the moment … -/
theorem Steady.storedAt (h : Steady history now) (he : e ∈ ledger history) :
    e.storedAt.isFinite = true ∧ e.storedAt ≤ now := by
  have hmem : e.storedAt ∈ history.map TimedCall.now :=
    (storedAt_ledger_sublist history).subset (List.mem_map_of_mem he)
  exact ⟨h.finite _ (List.mem_append_left _ hmem),
    (List.pairwise_append.1 h.forward).2.2 _ hmem now (by simp)⟩

/-- What a cache holds, against what was written: nothing else, no more
than the bound says, and of what the bound admits all that is live. -/
structure Holds (c : Cache) (written : List CacheEntry) (now : Binary64) : Prop where
  sublist : c.entries.Sublist written
  bounded : ∀ n, c.maxEntries = some n → c.entries.length ≤ n
  live : ∀ e ∈ admitted c.maxEntries written, c.expired now e = false → e ∈ c.entries

/-- No operation touches what a cache was opened with. -/
theorem settings_perform (c : Cache) (now : Binary64) (operation : CacheOperation) :
    (c.perform now operation).2.lifetime = c.lifetime ∧
      (c.perform now operation).2.maxEntries = c.maxEntries := by
  cases operation with
  | lookup signature =>
    unfold perform lookup
    dsimp only
    split <;> exact ⟨rfl, rfl⟩
  | store | clear | sweep | statistics => exact ⟨rfl, rfl⟩

@[simp] theorem maxEntries_answer (c : Cache) (now : Binary64) (call : CacheCall) :
    (c.answer now call).2.maxEntries = c.maxEntries := by
  unfold answer
  split
  · exact (settings_perform c now _).2
  · rfl

/-- To lose only what has expired keeps all of it. -/
theorem Holds.tidied (h : Holds c written now) (hlifetime : c'.lifetime = c.lifetime)
    (hbound : c'.maxEntries = c.maxEntries) (hsublist : c'.entries.Sublist c.entries)
    (hlive : ∀ e ∈ c.entries, c.expired now e = false → e ∈ c'.entries) : Holds c' written now where
  sublist := hsublist.trans h.sublist
  bounded n hn := hsublist.length_le.trans (h.bounded n (hbound ▸ hn))
  live e he hexpired := by
    have hsame : c.expired now e = false := by
      rw [← hexpired, expired, expired, hlifetime]
    exact hlive e (h.live e (hbound ▸ he) hsame) hsame

theorem Holds.nodup (h : Holds c (ledger history) now) :
    (c.entries.map CacheEntry.signature).Nodup :=
  (nodup_ledger history).sublist (h.sublist.map _)

/-- The one entry under a signature is the one found. -/
theorem find?_eq_some_iff (hnodup : (c.entries.map CacheEntry.signature).Nodup)
    {signature : String} :
    c.find? signature = some e ↔ e ∈ c.entries ∧ e.signature = signature := by
  unfold find?
  constructor
  · intro h
    exact ⟨List.mem_of_find?_eq_some h, by simpa using List.find?_some h⟩
  · rintro ⟨he, rfl⟩
    cases hfind : c.entries.find? fun d => d.signature = e.signature with
    | none => simpa using List.find?_eq_none.1 hfind e he
    | some d =>
      have hd : d.signature = e.signature := by simpa using List.find?_some hfind
      rw [List.inj_on_of_nodup_map hnodup (List.mem_of_find?_eq_some hfind) he hd]

theorem live?_eq_some_iff (hnodup : (c.entries.map CacheEntry.signature).Nodup)
    {signature : String} :
    c.live? now signature = some e ↔
      e ∈ c.entries ∧ e.signature = signature ∧ c.expired now e = false := by
  rw [live?, Option.filter_eq_some_iff, find?_eq_some_iff hnodup, Bool.not_eq_true', and_assoc]

variable {signature : String}

/-- A look-up hands out the live entry under its signature … -/
theorem lookup_of_live (h : c.live? now signature = some e) :
    c.lookup now signature =
      (some { e.result with fromCache := true }, { c with hits := c.hits + 1 }) := by
  rw [lookup, h]

/-- … and if there is none drops what has expired there. -/
theorem lookup_of_not_live (h : c.live? now signature = none) :
    c.lookup now signature =
      (none, { c with entries := without signature c.entries, misses := c.misses + 1 }) := by
  rw [lookup, h]

/-- A look-up loses no live entry: the one under its signature went
because it had expired. -/
theorem Holds.lookup (h : Holds c (ledger history) now) (signature : String) :
    Holds (c.lookup now signature).2 (ledger history) now := by
  cases hlive : c.live? now signature with
  | some e =>
    rw [lookup_of_live hlive]
    exact h.tidied rfl rfl (List.Sublist.refl _) fun _ he _ => he
  | none =>
    rw [lookup_of_not_live hlive]
    refine h.tidied rfl rfl List.filter_sublist fun e he hexpired => ?_
    rw [mem_without]
    refine ⟨he, fun hsame => ?_⟩
    rw [(live?_eq_some_iff h.nodup).2 ⟨he, hsame, hexpired⟩] at hlive
    exact absurd hlive (by simp)

theorem Holds.sweep (h : Holds c written now) : Holds (c.sweep now).2 written now :=
  h.tidied rfl rfl List.filter_sublist fun e he hexpired => by
    simp [Cache.sweep, he, hexpired]

/-- A new entry is the only one under its signature. -/
theorem nodup_without_concat (new : CacheEntry) {entries : List CacheEntry}
    (h : (entries.map CacheEntry.signature).Nodup) :
    ((without new.signature entries ++ [new]).map CacheEntry.signature).Nodup := by
  rw [List.map_append, List.map_singleton, ← List.concat_eq_append, List.nodup_concat]
  refine ⟨fun hmem => ?_, h.sublist (List.filter_sublist.map _)⟩
  obtain ⟨d, hd, hsame⟩ := List.mem_map.1 hmem
  exact (mem_without.1 hd).2 hsame

/-- **To store keeps all that is live.** An entry that is still admitted
beside the new one was admitted before. -/
theorem Holds.store (h : Holds c (ledger history) now) (signature : String) (r : QueryResult) :
    Holds (c.store now signature r) (without signature (ledger history) ++ [⟨signature, r, now⟩])
      now where
  sublist := by
    refine List.Sublist.trans ?_ ((h.sublist.filter _).append (List.Sublist.refl _))
    unfold Cache.store admitted
    dsimp only
    split
    · exact List.drop_sublist _ _
    · exact List.Sublist.refl _
  bounded n hn := by
    simp only [Cache.store] at hn ⊢
    rw [hn, admitted, List.length_drop]
    omega
  live e he hexpired := by
    have hnodup := nodup_without_concat ⟨signature, r, now⟩ (nodup_ledger history)
    refine mem_admitted_of_sublist (hnodup.of_map _)
      ((h.sublist.filter _).append (List.Sublist.refl _)) he ?_
    rw [List.mem_append, List.mem_singleton]
    by_cases hnew : e = ⟨signature, r, now⟩
    · exact Or.inr hnew
    · obtain ⟨hbefore, hother⟩ := mem_admitted_of_concat (nodup_ledger history) he hnew
      exact Or.inl (mem_without.2 ⟨h.live e hbefore hexpired, hother⟩)

theorem holds_clear (c : Cache) (now : Binary64) : Holds c.clear [] now where
  sublist := List.Sublist.refl _
  bounded _ _ := Nat.zero_le _
  live e he _ := by
    obtain ⟨older, newer, hnil, -⟩ := mem_admitted.1 he
    simp at hnil

/-- **One call**, whatever it is, keeps what is held. -/
theorem Holds.answer {x : TimedCall} (h : Holds c (ledger history) x.now) :
    Holds (c.answer x.now x.call).2 (ledger (history ++ [x])) x.now := by
  cases hoperation : x.call.operation with
  | error f =>
    rw [answer_of_refused hoperation, ledger_concat_of_not_writes history
      (by simp [TimedCall.writes, TimedCall.isClear, TimedCall.written?, hoperation])]
    exact h
  | ok operation =>
    rw [answer_of_operation hoperation]
    cases operation with
    | store signature r =>
      rw [ledger_concat_of_written (e := ⟨signature, r, x.now⟩) history
        (by rw [TimedCall.written?, hoperation])]
      exact h.store signature r
    | clear =>
      rw [ledger_concat_of_isClear history (by rw [TimedCall.isClear, hoperation])]
      exact holds_clear c x.now
    | lookup | sweep | statistics =>
      rw [ledger_concat_of_not_writes history
        (by simp [TimedCall.writes, TimedCall.isClear, TimedCall.written?, hoperation])]
      first | exact h.lookup _ | exact h.sweep | exact h

end Cache

end KnowledgeGraph
