import KnowledgeGraph.Proofs.Value.Alike
/-!
# What can be written

A value can be written unless it holds an integer with too many digits,
at whatever depth (`isWritable`). What is written then is the plain text
of its sorted form, and otherwise there is one fault
(`canonical_eq_plain_sorted`). So neither the order of fields nor the
place of the integer shows.
-/

namespace KnowledgeGraph

namespace Value

open Canonical

/-! ## Writable values -/

mutual

/-- Whether every integer, at every depth, has few enough digits. -/
def isWritable : Value → Bool
  | int n => decide ((digitsOf n.natAbs).length ≤ IntegerText.mostDigits)
  | list items => itemsWritable items
  | map fields => fieldsWritable fields
  | _ => true

def itemsWritable : List Value → Bool
  | [] => true
  | v :: rest => isWritable v && itemsWritable rest

def fieldsWritable : Fields → Bool
  | [] => true
  | (_, v) :: rest => isWritable v && fieldsWritable rest

end

/-- An integer can be written if it is below the first power of ten that
has too many digits. -/
theorem isWritable_int_iff {n : ℤ} :
    (int n).isWritable = true ↔ n.natAbs < Nat.pow 10 IntegerText.mostDigits := by
  have hpos : 0 < IntegerText.mostDigits := by decide
  rw [isWritable, decide_eq_true_eq, digitsOf]
  -- the power itself is never to be computed
  generalize IntegerText.mostDigits = k at hpos ⊢
  exact Nat.length_toDigits_le_iff (by decide) hpos

theorem itemsWritable_iff {items : List Value} :
    itemsWritable items = true ↔ ∀ v ∈ items, v.isWritable = true := by
  induction items with
  | nil => simp [itemsWritable]
  | cons v rest ih => simp [itemsWritable, ih]

theorem fieldsWritable_iff {fields : Fields} :
    fieldsWritable fields = true ↔ ∀ f ∈ fields, f.2.isWritable = true := by
  induction fields with
  | nil => simp [fieldsWritable]
  | cons f rest ih => simp [fieldsWritable, ih]

/-- **In what order fields stand** does not matter to whether they can be
written. -/
theorem isWritable_sorted (v : Value) : v.sorted.isWritable = v.isWritable := by
  induction v using Value.induction with
  | null | bool | int | num | text => rfl
  | list items ih =>
    rw [sorted, isWritable, isWritable, Bool.eq_iff_iff, itemsWritable_iff, itemsWritable_iff,
      sortedItems_eq_map, List.forall_mem_map]
    exact forall₂_congr fun v hv => by rw [ih v hv]
  | map fields ih =>
    rw [sorted, isWritable, isWritable, Bool.eq_iff_iff, fieldsWritable_iff, fieldsWritable_iff,
      sortedFields_eq_map]
    simp only [(sortByKey_perm _).mem_iff, List.forall_mem_map]
    exact forall₂_congr fun f hf => by rw [ih f hf]

/-! ## Plain text -/

mutual

/-- The text of a value with fields in the order they stand in, and with
integers of any length. -/
def plain : Value → List Char
  | null => "null".toList
  | bool b => if b then "true".toList else "false".toList
  | int n => decimal n
  | num x => double x
  | text s => quote s
  | list items => '[' :: commaSeparated (plainItems items) ++ [']']
  | map fields => '\x7b' :: commaSeparated (plainFields fields) ++ ['\x7d']

def plainItems : List Value → List (List Char)
  | [] => []
  | v :: rest => plain v :: plainItems rest

def plainFields : Fields → List (List Char)
  | [] => []
  | (k, v) :: rest => field (k, plain v) :: plainFields rest

end

theorem plainItems_eq_map (items : List Value) : plainItems items = items.map plain := by
  induction items with
  | nil => rfl
  | cons v rest ih => rw [plainItems, ih, List.map_cons]

/-- The plain text of a field. -/
def plainField (f : String × Value) : List Char := field (f.1, f.2.plain)

theorem plainFields_eq_map (fields : Fields) : plainFields fields = fields.map plainField := by
  induction fields with
  | nil => rfl
  | cons f rest ih => rw [plainFields, ih, List.map_cons, plainField]

/-! ## Canonical text -/

mutual

/-- **The canonical text is the plain text of the sorted value**, if it
can be written. -/
theorem canonical_eq_plain_sorted :
    ∀ v : Value, v.canonical = if v.isWritable then .ok v.sorted.plain else .error .oversized
  | null => rfl
  | bool _ => rfl
  | num _ => rfl
  | text _ => rfl
  | int n => by
    simp only [canonical, integer, isWritable, sorted, plain, decide_eq_true_eq]
    split <;> split <;> first | rfl | omega
  | list items => by
    rw [canonical, canonicalItems_eq, isWritable, sorted, plain]
    cases itemsWritable items <;> rfl
  | map fields => by
    rw [canonical, canonicalFields_eq, isWritable, sorted, plain, plainFields_eq_map]
    cases fieldsWritable fields
    · rfl
    · simp only [if_true, bind, Except.bind, pure, Except.pure, sortByKey_map plain, List.map_map]
      rfl

theorem canonicalItems_eq :
    ∀ items : List Value, canonicalItems items =
      if itemsWritable items then .ok (plainItems (sortedItems items)) else .error .oversized
  | [] => rfl
  | v :: rest => by
    rw [canonicalItems, canonical_eq_plain_sorted v, canonicalItems_eq rest, itemsWritable]
    cases isWritable v <;> cases itemsWritable rest <;> rfl

theorem canonicalFields_eq :
    ∀ fields : Fields, canonicalFields fields =
      if fieldsWritable fields then .ok ((sortedFields fields).map fun f => (f.1, f.2.plain))
      else .error .oversized
  | [] => rfl
  | (k, v) :: rest => by
    rw [canonicalFields, canonical_eq_plain_sorted v, canonicalFields_eq rest, fieldsWritable]
    cases isWritable v <;> cases fieldsWritable rest <;> rfl

end

theorem canonical_eq_ok_iff {v : Value} {text : List Char} :
    v.canonical = .ok text ↔ v.isWritable = true ∧ v.sorted.plain = text := by
  rw [canonical_eq_plain_sorted]
  cases v.isWritable <;> simp

end Value

end KnowledgeGraph
