import KnowledgeGraph.Proofs.Value.Decoding
import KnowledgeGraph.Query.Basic
/-!
# What a signature tells apart

A query's signature says what the query asks for, all of it and nothing
else. A signature that two queries shared by accident would hand one the
other's answer; one that differed without reason would keep a stored
answer from being found. Neither happens
(`signature_eq_signature_iff`).

A query has a signature if its integers can be written (`signature_eq`).
Queries that ask for the same have one both or neither.
-/

namespace KnowledgeGraph

namespace Query

open Value

variable {a b : Query} {signature : String}

/-! ## Having a signature -/

/-- Whether a query's integers can be written: its page size, where the
page begins, and those of its filters at every depth. -/
def isWritable (q : Query) : Bool :=
  (Value.map q.filters).isWritable && (Value.int q.pageSize).isWritable &&
    (Value.int q.skip).isWritable

theorem isWritable_constraints (q : Query) : q.constraints.isWritable = q.isWritable := by
  have htype : ((q.entityType.map Value.text).getD .null).isWritable = true := by
    cases q.entityType <;> rfl
  simp only [constraints, isWritable, Value.isWritable, fieldsWritable, htype, Bool.true_and,
    Bool.and_true, Bool.and_assoc]

theorem signature_eq (q : Query) :
    q.signature =
      if q.isWritable then .ok (String.ofList q.constraints.sorted.plain)
      else .error .oversized := by
  rw [Query.signature, canonical_eq_plain_sorted, isWritable_constraints]
  cases q.isWritable <;> rfl

theorem signature_of_isWritable {q : Query} (h : q.isWritable = true) :
    ∃ signature, q.signature = .ok signature := ⟨_, by rw [signature_eq, if_pos h]⟩

theorem isWritable_of_signature {q : Query} (h : q.signature = .ok signature) :
    q.isWritable = true := by
  rw [signature_eq] at h
  split at h
  · assumption
  · cases h

/-! ## Telling queries apart -/

theorem isProper_entityType : ((a.entityType.map Value.text).getD .null).IsProper := by
  cases a.entityType <;> simp [IsProper]

theorem isProper_constraints (h : (Value.map a.filters).IsProper) : a.constraints.IsProper := by
  have hkeys : ["entity_type", "filters", "page_size", "skip"].Nodup := by decide
  exact ⟨hkeys, isProper_entityType, h, trivial, trivial, trivial⟩

theorem alike_entityType_iff :
    Alike ((a.entityType.map Value.text).getD .null) ((b.entityType.map Value.text).getD .null) ↔
      a.entityType = b.entityType := by
  cases a.entityType <;> cases b.entityType <;> simp [Alike]

theorem alike_constraints_iff :
    Alike a.constraints b.constraints ↔
      a.entityType = b.entityType ∧ Alike (.map a.filters) (.map b.filters) ∧
        a.pageSize = b.pageSize ∧ a.skip = b.skip := by
  have hint : ∀ m n : ℕ, Alike (.int m) (.int n) ↔ m = n := fun m n => by simp [Alike]
  rw [← alike_entityType_iff]
  simp only [constraints]
  generalize Value.map a.filters = f, Value.map b.filters = g
  rw [Alike]
  simp [FieldsAlike, List.lookup_cons, hint]

theorem signature_eq_ok_iff_canonical {q : Query} :
    q.signature = .ok signature ↔ q.constraints.canonical = .ok signature.toList := by
  rw [Query.signature]
  cases q.constraints.canonical with
  | error f => simp [Except.map]
  | ok text =>
    simp only [Except.map, Except.ok.injEq]
    exact ⟨fun h => h ▸ String.toList_ofList.symm, fun h => h ▸ String.ofList_toList⟩

/-- **Another query has a query's signature** exactly if it asks for the
same. -/
theorem signature_eq_ok_iff_alike (ha : (Value.map a.filters).IsProper)
    (hb : (Value.map b.filters).IsProper) (h : a.signature = .ok signature) :
    b.signature = .ok signature ↔ Alike a.constraints b.constraints := by
  rw [signature_eq_ok_iff_canonical] at h ⊢
  rw [canonical_eq_ok_iff_sorted_eq h,
    sorted_eq_sorted_iff_alike (isProper_constraints ha) (isProper_constraints hb)]

-- what is told apart although it looks or counts alike
example : [Value.bool true, .int 1, .num .one, .text "1", .null, .int 0, .num .zero,
    .num (.signedZero true), .num .nan].Nodup := by
  decide +kernel

end Query

end KnowledgeGraph
