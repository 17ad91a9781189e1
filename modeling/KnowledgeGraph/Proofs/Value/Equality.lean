import KnowledgeGraph.Proofs.Value.Alike
import KnowledgeGraph.Value.Matching
import Mathlib.Algebra.Field.Rat
import Mathlib.Data.List.Perm.Subperm
/-!
# What a filter's value is equal to

Property values are equal (`Equal`) if they are of one kind and one worth:
numbers by their exact value, lists item by item, maps key by key, and a
truth value only to the same truth value, at every depth.

Filters compare more loosely. What `numericEq` compares are values with
their truth values counted one and zero (`counted`), at every depth
(`numericEq_iff_equal_counted`), and `meets` sets apart only the truth
values that are not inside anything. So a filter that is not a wildcard is
met by whatever is equal to it, and by nothing else as long as no truth
value stands inside a list or a map (`meets_iff_equal_counted`). Inside of
one, true meets the number one.

A value is equal to itself, unless it holds what is not a number
(`equal_self`).
-/

namespace KnowledgeGraph

/-! ## The worth of numbers -/

/-- What a number is worth, exactly. -/
inductive Worth where
  | finite (q : ℚ)
  | infinite (negative : Bool)

namespace Binary64

/-- The worth of a double; what is not a number has none. -/
def worth? : Binary64 → Option Worth
  | .nan => none
  | .infinite s => some (.infinite s)
  | .finite s u _ => some (.finite (signed s u / unitsPerOne))

variable {s t : Bool} {u v : ℕ}

theorem unitsPerOne_ne_zero : (unitsPerOne : ℚ) ≠ 0 :=
  Nat.cast_ne_zero.2 (by decide +kernel)

theorem signed_eq_mul_iff {n : ℤ} :
    signed s u = n * unitsPerOne ↔ (signed s u / unitsPerOne : ℚ) = n := by
  rw [div_eq_iff unitsPerOne_ne_zero]
  exact_mod_cast Iff.rfl

theorem signed_eq_signed_iff :
    signed s u = signed t v ↔ (signed s u / unitsPerOne : ℚ) = signed t v / unitsPerOne := by
  rw [div_left_inj' unitsPerOne_ne_zero]
  exact_mod_cast Iff.rfl

/-- No finite double stands where an infinite one does. -/
theorem signed_ne_signed_unitLimit (h : IsRepresentable u) : signed s u ≠ signed t unitLimit := by
  have hlt := h.1
  unfold signed
  split <;> split <;> omega

theorem signed_unitLimit_inj : signed s unitLimit = signed t unitLimit ↔ s = t := by
  cases s <;> cases t <;> decide +kernel

theorem eqInt_iff {x : Binary64} {n : ℤ} : x.eqInt n = true ↔ x.worth? = some (.finite n) := by
  cases x with
  | finite s u hu => simp [eqInt, worth?, signed_eq_mul_iff]
  | _ => simp [eqInt, worth?]

theorem numEq_iff {x y : Binary64} :
    x.numEq y = true ↔ ∃ w, x.worth? = some w ∧ y.worth? = some w := by
  unfold numEq compareKeys
  cases x with
  | nan => simp [key, worth?]
  | infinite s =>
    cases y with
    | nan => simp [key, worth?]
    | infinite t => simp [key, worth?, signed_unitLimit_inj, eq_comm]
    | finite t v hv => simpa [key, worth?] using (signed_ne_signed_unitLimit hv).symm
  | finite s u hu =>
    cases y with
    | nan => simp [key, worth?]
    | infinite t => simpa [key, worth?] using signed_ne_signed_unitLimit hu
    | finite t v hv => simp [key, worth?, signed_eq_signed_iff, eq_comm]

end Binary64

namespace Value

def Number.worth? : Number → Option Worth
  | .int n => some (.finite n)
  | .num x => x.worth?

/-- **Numbers compare by their worth.** -/
theorem Number.eq_iff {m n : Number} :
    m.eq n = true ↔ ∃ w, m.worth? = some w ∧ n.worth? = some w := by
  cases m with
  | int a =>
    cases n with
    | int b => simpa [Number.eq, Number.worth?] using eq_comm
    | num y => simp [Number.eq, Number.worth?, Binary64.eqInt_iff]
  | num x =>
    cases n with
    | int b => simp [Number.eq, Number.worth?, Binary64.eqInt_iff]
    | num y => exact Binary64.numEq_iff

/-! ## Equality at every depth -/

/-- The worth of a value that is a number; a truth value is none. -/
def worth? : Value → Option Worth
  | int n => some (.finite n)
  | num x => x.worth?
  | _ => none

mutual

/-- Whether two values are equal: truth values and texts by identity,
lists item by item, maps key by key, and numbers by their worth. -/
def Equal : Value → Value → Prop
  | null, null => True
  | bool a, bool b => a = b
  | text s, text t => s = t
  | list as, list bs => ItemsEqual as bs
  | map as, map bs => (∀ k, k ∈ as.map Prod.fst ↔ k ∈ bs.map Prod.fst) ∧ FieldsEqual as bs
  | a, b => ∃ w, a.worth? = some w ∧ b.worth? = some w

def ItemsEqual : List Value → List Value → Prop
  | [], [] => True
  | a :: as, b :: bs => Equal a b ∧ ItemsEqual as bs
  | _, _ => False

/-- Every field has one among others with its key and an equal value. -/
def FieldsEqual : Fields → Fields → Prop
  | [], _ => True
  | (k, a) :: as, bs => (∃ b, bs.lookup k = some b ∧ Equal a b) ∧ FieldsEqual as bs

end

mutual

/-- The value with every truth value in it, at any depth, counted as one
or zero. -/
def counted : Value → Value
  | bool b => int (if b then 1 else 0)
  | list items => list (countedItems items)
  | map fields => map (countedFields fields)
  | v => v

def countedItems : List Value → List Value
  | [] => []
  | v :: rest => counted v :: countedItems rest

def countedFields : Fields → Fields
  | [] => []
  | (k, v) :: rest => (k, counted v) :: countedFields rest

end

theorem map_fst_countedFields (fields : Fields) :
    (countedFields fields).map Prod.fst = fields.map Prod.fst := by
  induction fields with
  | nil => rfl
  | cons f rest ih => rw [countedFields, List.map_cons, List.map_cons, ih]

theorem lookup_countedFields (fields : Fields) (k : String) :
    (countedFields fields).lookup k = (fields.lookup k).map counted := by
  induction fields with
  | nil => rfl
  | cons f rest ih =>
    rw [countedFields, List.lookup_cons, List.lookup_cons, ih]
    cases k == f.1 <;> rfl

theorem worth?_counted (v : Value) : v.counted.worth? = v.number?.bind Number.worth? := by
  cases v <;> rfl

/-- What is worth the same number is so counted. -/
theorem sameNumber_iff {a b : Value} :
    sameNumber a b = true ↔ ∃ w, a.counted.worth? = some w ∧ b.counted.worth? = some w := by
  rw [worth?_counted, worth?_counted, sameNumber]
  cases a.number? <;> cases b.number? <;> simp [Number.eq_iff]

theorem numericEqItems_iff {as bs : List Value}
    (h : ∀ a ∈ as, ∀ b ∈ bs, numericEq a b = true ↔ Equal a.counted b.counted) :
    numericEqItems as bs = true ↔ ItemsEqual (countedItems as) (countedItems bs) := by
  induction as generalizing bs with
  | nil => cases bs <;> simp [numericEqItems, countedItems, ItemsEqual]
  | cons a as ih =>
    cases bs with
    | nil => simp [numericEqItems, countedItems, ItemsEqual]
    | cons b bs =>
      rw [numericEqItems, countedItems, countedItems, ItemsEqual, Bool.and_eq_true,
        h a List.mem_cons_self b List.mem_cons_self,
        ih fun a ha b hb => h a (List.mem_cons_of_mem _ ha) b (List.mem_cons_of_mem _ hb)]

theorem numericEqFields_iff {as bs : Fields}
    (h : ∀ f ∈ as, ∀ b, bs.lookup f.1 = some b →
      (numericEq f.2 b = true ↔ Equal f.2.counted b.counted)) :
    numericEqFields as bs = true ↔ FieldsEqual (countedFields as) (countedFields bs) := by
  induction as with
  | nil => simp [numericEqFields, countedFields, FieldsEqual]
  | cons f as ih =>
    rw [List.forall_mem_cons] at h
    rw [numericEqFields, countedFields, FieldsEqual, Bool.and_eq_true, ih h.2,
      lookup_countedFields]
    refine and_congr_left fun _ => ?_
    cases hfound : bs.lookup f.1 with
    | none => simp
    | some b => simpa using h.1 b hfound

/-- Every field that is met has its key among the others. -/
theorem subset_of_numericEqFields {as bs : Fields} (h : numericEqFields as bs = true) :
    as.map Prod.fst ⊆ bs.map Prod.fst := by
  induction as with
  | nil => simp
  | cons f as ih =>
    rw [numericEqFields, Bool.and_eq_true] at h
    rw [List.map_cons, List.cons_subset]
    refine ⟨?_, ih h.2⟩
    by_contra habsent
    rw [lookup_eq_none_iff.2 habsent] at h
    exact absurd h.1 Bool.false_ne_true

/-- **Filters compare values as they count.** -/
theorem numericEq_iff_equal_counted {a b : Value} (ha : a.IsProper) (hb : b.IsProper) :
    a.numericEq b = true ↔ Equal a.counted b.counted := by
  induction a using Value.induction generalizing b with
  | null => cases b <;> simp [numericEq, sameNumber, number?, counted, Equal, worth?]
  | text s => cases b <;> simp [numericEq, sameNumber, number?, counted, Equal, worth?]
  | list as ih =>
    cases b with
    | list bs =>
      rw [IsProper, itemsProper_iff] at ha hb
      rw [numericEq, counted, counted, Equal]
      exact numericEqItems_iff fun a hamem b hbmem => ih a hamem (ha a hamem) (hb b hbmem)
    | _ => simp [numericEq, sameNumber, number?, counted, Equal, worth?]
  | map as ih =>
    cases b with
    | map bs =>
      rw [IsProper, fieldsProper_iff] at ha hb
      have hfields : numericEqFields as bs = true ↔
          FieldsEqual (countedFields as) (countedFields bs) :=
        numericEqFields_iff fun f hf b hlookup =>
          ih f hf (ha.2 f hf) (hb.2 (f.1, b) ((mem_iff_lookup hb.1).2 hlookup))
      rw [numericEq, counted, counted, Equal, map_fst_countedFields, map_fst_countedFields,
        Bool.and_eq_true, beq_iff_eq, ← hfields]
      -- with every key found, as many fields are the same keys
      refine and_congr_left fun heq => ⟨fun hlength k => ?_, fun hkeys => ?_⟩
      · have hsubperm := List.subperm_of_subset ha.1 (subset_of_numericEqFields heq)
        exact (hsubperm.perm_of_length_le (by simp [hlength])).mem_iff
      · simpa using ((List.perm_ext_iff_of_nodup ha.1 hb.1).2 hkeys).length_eq
    | _ => simp [numericEq, sameNumber, number?, counted, Equal, worth?]
  | bool t => exact sameNumber_iff
  | int n => exact sameNumber_iff
  | num x => exact sameNumber_iff

/-! ## Equal and counted equal -/

theorem itemsEqual_counted {as bs : List Value}
    (ih : ∀ a ∈ as, ∀ {b}, Equal a b → Equal a.counted b.counted) (h : ItemsEqual as bs) :
    ItemsEqual (countedItems as) (countedItems bs) := by
  induction as generalizing bs with
  | nil =>
    cases bs with
    | nil => exact h
    | cons b bs => exact h.elim
  | cons a as ih' =>
    cases bs with
    | nil => exact h.elim
    | cons b bs =>
      rw [List.forall_mem_cons] at ih
      exact ⟨ih.1 h.1, ih' ih.2 h.2⟩

theorem fieldsEqual_counted {as bs : Fields}
    (ih : ∀ f ∈ as, ∀ {b}, Equal f.2 b → Equal f.2.counted b.counted) (h : FieldsEqual as bs) :
    FieldsEqual (countedFields as) (countedFields bs) := by
  induction as with
  | nil => exact h
  | cons f as ih' =>
    obtain ⟨⟨b, hfound, hequal⟩, hrest⟩ := h
    rw [List.forall_mem_cons] at ih
    rw [countedFields, FieldsEqual, lookup_countedFields, hfound]
    exact ⟨⟨b.counted, rfl, ih.1 hequal⟩, ih' ih.2 hrest⟩

/-- What is equal stays so when truth values are counted. -/
theorem equal_counted_of_equal {a b : Value} (h : Equal a b) : Equal a.counted b.counted := by
  induction a using Value.induction generalizing b with
  | list as ih =>
    cases b with
    | list bs => exact itemsEqual_counted ih h
    | _ => simp [Equal, worth?] at h
  | map as ih =>
    cases b with
    | map bs =>
      rw [Equal] at h
      rw [counted, counted, Equal, map_fst_countedFields, map_fst_countedFields]
      exact ⟨h.1, fieldsEqual_counted ih h.2⟩
    | _ => simp [Equal, worth?] at h
  | _ => cases b <;> simp_all [Equal, worth?, counted]

/-- A filter's value that is no wildcard is compared by what it counts,
but a truth value with its like only. -/
theorem meets_iff (stored : Value) {expected : Value}
    (hstar : ∀ s, expected = .text s → '*' ∉ s.toList) :
    stored.meets expected = true ↔
      (∀ t, stored = .bool t ∨ expected = .bool t → stored = expected) ∧
        stored.numericEq expected = true := by
  have hpattern : expected.pattern? = none := by
    cases expected with
    | text s => simpa [pattern?] using hstar s rfl
    | _ => rfl
  unfold meets
  rw [hpattern]
  cases stored with
  | bool t =>
    cases expected with
    | bool u => cases t <;> cases u <;> decide
    | _ => simp
  | _ =>
    cases expected with
    | bool u => simp
    | _ => simp

/-- A truth value is equal only to itself. -/
theorem eq_of_equal_of_bool {a b : Value} (h : Equal a b) :
    ∀ t, a = .bool t ∨ b = .bool t → a = b := by
  rintro t (rfl | rfl)
  · cases b <;> simp_all [Equal, worth?]
  · cases a <;> simp_all [Equal, worth?]

/-- **A filter that is no wildcard is met by what is equal to its
value.** -/
theorem meets_of_equal {stored expected : Value} (hs : stored.IsProper) (he : expected.IsProper)
    (hstar : ∀ s, expected = .text s → '*' ∉ s.toList) (h : Equal stored expected) :
    stored.meets expected = true :=
  (meets_iff stored hstar).2 ⟨eq_of_equal_of_bool h,
    (numericEq_iff_equal_counted hs he).2 (equal_counted_of_equal h)⟩

/-- No truth value stands inside of a value; it may be one itself. -/
def FlatTruth (v : Value) : Prop := (∃ t, v = .bool t) ∨ v.counted = v

/-- **A filter that is no wildcard compares values as they count**, truth
values at the top apart. What is equal meets it; and if no truth value
stands inside a list or a map, only that does. -/
theorem meets_iff_equal_counted {stored expected : Value} (hs : stored.IsProper)
    (he : expected.IsProper) (hstar : ∀ s, expected = .text s → '*' ∉ s.toList) :
    (stored.meets expected = true ↔
      (∀ t, stored = .bool t ∨ expected = .bool t → stored = expected) ∧
        Equal stored.counted expected.counted) ∧
    (Equal stored expected → stored.meets expected = true) ∧
    (FlatTruth stored → FlatTruth expected →
      (stored.meets expected = true ↔ Equal stored expected)) := by
  have hmeets := (meets_iff stored hstar).trans
    (and_congr_right fun _ => numericEq_iff_equal_counted hs he)
  have hequal := meets_of_equal hs he hstar
  refine ⟨hmeets, hequal, fun hflat hflat' => ⟨fun h => ?_, hequal⟩⟩
  obtain ⟨hsame, hcounted⟩ := hmeets.1 h
  rcases hflat with ⟨t, rfl⟩ | hflat
  · obtain rfl := hsame t (Or.inl rfl)
    exact rfl
  rcases hflat' with ⟨t, rfl⟩ | hflat'
  · obtain rfl := hsame t (Or.inr rfl)
    exact rfl
  rwa [hflat, hflat'] at hcounted

theorem meets_iff_equal_counted_nested :
    let stored : Value := .map [("counts", .list [.int 1, .num .zero]), ("name", .text "a")]
    let expected : Value := .map [("name", .text "a"), ("counts", .list [.num .one, .int 0])]
    stored.IsProper ∧ expected.IsProper ∧ (∀ s, expected = .text s → '*' ∉ s.toList) ∧
      FlatTruth stored ∧ FlatTruth expected ∧
      stored.meets expected = true ∧ Equal stored expected := by
  intro stored expected
  have hs : stored.IsProper := by simp [stored, IsProper, FieldsProper, ItemsProper]
  have he : expected.IsProper := by simp [expected, IsProper, FieldsProper, ItemsProper]
  have hstar : ∀ s, expected = .text s → '*' ∉ s.toList := by simp [expected]
  have hflat : FlatTruth stored := Or.inr rfl
  have hflat' : FlatTruth expected := Or.inr rfl
  have hmeets : stored.meets expected = true := by decide +kernel
  have hiff := (meets_iff_equal_counted hs he hstar).2.2 hflat hflat'
  exact ⟨hs, he, hstar, hflat, hflat', hmeets, hiff.1 hmeets⟩

/-- Inside a list, true meets the number one without being equal to it. -/
theorem not_equal_of_meets_listed :
    (Value.list [.bool true]).IsProper ∧ (Value.list [.int 1]).IsProper ∧
      (Value.list [.bool true]).meets (.list [.int 1]) = true ∧
      ¬ Equal (.list [.bool true]) (.list [.int 1]) := by
  refine ⟨by simp [IsProper, ItemsProper], by simp [IsProper, ItemsProper], rfl, ?_⟩
  simp [Equal, ItemsEqual, worth?]

/-! ## Equal to itself -/

mutual

/-- Nothing that is not a number stands anywhere in a value. -/
def IsNanFree : Value → Prop
  | num x => x ≠ .nan
  | list items => ItemsNanFree items
  | map fields => FieldsNanFree fields
  | _ => True

def ItemsNanFree : List Value → Prop
  | [] => True
  | v :: rest => IsNanFree v ∧ ItemsNanFree rest

def FieldsNanFree : Fields → Prop
  | [] => True
  | (_, v) :: rest => IsNanFree v ∧ FieldsNanFree rest

end

theorem fieldsNanFree_iff {fields : Fields} :
    FieldsNanFree fields ↔ ∀ f ∈ fields, f.2.IsNanFree := by
  induction fields with
  | nil => simp [FieldsNanFree]
  | cons f rest ih => simp [FieldsNanFree, ih]

theorem fieldsEqual_iff {as bs : Fields} :
    FieldsEqual as bs ↔ ∀ f ∈ as, ∃ b, bs.lookup f.1 = some b ∧ Equal f.2 b := by
  induction as with
  | nil => simp [FieldsEqual]
  | cons f as ih => simp [FieldsEqual, ih]

theorem itemsEqual_self {items : List Value} (hp : ItemsProper items) (h : ItemsNanFree items)
    (ih : ∀ v ∈ items, v.IsProper → v.IsNanFree → Equal v v) : ItemsEqual items items := by
  induction items with
  | nil => exact True.intro
  | cons v rest ih' =>
    rw [List.forall_mem_cons] at ih
    exact ⟨ih.1 hp.1 h.1, ih' hp.2 h.2 ih.2⟩

/-- **Every value is equal to itself** that holds nothing but numbers where
numbers should be. -/
theorem equal_self {v : Value} (hp : v.IsProper) (h : v.IsNanFree) : Equal v v := by
  induction v using Value.induction with
  | null => exact True.intro
  | bool t => exact rfl
  | text s => exact rfl
  | int n => exact ⟨.finite n, rfl, rfl⟩
  | num x =>
    cases x with
    | nan => exact absurd rfl h
    | infinite s => exact ⟨.infinite s, rfl, rfl⟩
    | finite s u hu => exact ⟨.finite (Binary64.signed s u / unitsPerOne), rfl, rfl⟩
  | list items ih => exact itemsEqual_self hp h ih
  | map fields ih =>
    rw [IsProper, fieldsProper_iff] at hp
    rw [IsNanFree, fieldsNanFree_iff] at h
    rw [Equal, fieldsEqual_iff]
    exact ⟨fun _ => Iff.rfl, fun f hf =>
      ⟨f.2, (mem_iff_lookup hp.1).1 hf, ih f hf (hp.2 f hf) (h f hf)⟩⟩

theorem itemsNanFree_of_numericEqItems {as bs : List Value}
    (ih : ∀ a ∈ as, ∀ {b}, numericEq a b = true → a.IsNanFree)
    (h : numericEqItems as bs = true) : ItemsNanFree as := by
  induction as generalizing bs with
  | nil => exact True.intro
  | cons a as ih' =>
    cases bs with
    | nil => exact absurd h Bool.false_ne_true
    | cons b bs =>
      rw [numericEqItems, Bool.and_eq_true] at h
      rw [List.forall_mem_cons] at ih
      exact ⟨ih.1 h.1, ih' ih.2 h.2⟩

theorem fieldsNanFree_of_numericEqFields {as bs : Fields}
    (ih : ∀ f ∈ as, ∀ {b}, numericEq f.2 b = true → f.2.IsNanFree)
    (h : numericEqFields as bs = true) : FieldsNanFree as := by
  induction as with
  | nil => exact True.intro
  | cons f as ih' =>
    rw [numericEqFields, Bool.and_eq_true] at h
    rw [List.forall_mem_cons] at ih
    cases hfound : bs.lookup f.1 with
    | none => simp [hfound] at h
    | some b =>
      rw [hfound] at h
      exact ⟨ih.1 h.1, ih' ih.2 h.2⟩

/-- Nothing is equal, as filters compare, to a value that holds what is
not a number. -/
theorem isNanFree_of_numericEq {v w : Value} (h : v.numericEq w = true) : v.IsNanFree := by
  induction v using Value.induction generalizing w with
  | null | bool | int | text => exact True.intro
  | num x =>
    rintro rfl
    obtain ⟨_, hworth, -⟩ := sameNumber_iff.1 (show sameNumber (num .nan) w = true from h)
    cases hworth
  | list items ih =>
    cases w with
    | list others => exact itemsNanFree_of_numericEqItems ih h
    | _ => simp [numericEq, sameNumber, number?] at h
  | map fields ih =>
    cases w with
    | map others =>
      rw [numericEq, Bool.and_eq_true] at h
      exact fieldsNanFree_of_numericEqFields ih h.2
    | _ => simp [numericEq, sameNumber, number?] at h

/-- **A value is equal to itself, as filters compare,** exactly if nothing
in it is not a number. -/
theorem numericEq_self_iff {v : Value} (hp : v.IsProper) : v.numericEq v = true ↔ v.IsNanFree :=
  ⟨isNanFree_of_numericEq, fun h =>
    (numericEq_iff_equal_counted hp hp).2 (equal_counted_of_equal (equal_self hp h))⟩

end Value

end KnowledgeGraph
