import KnowledgeGraph.Keyed
import KnowledgeGraph.Value.Canonical
import Mathlib.Data.List.Nodup
import Mathlib.Data.String.Basic
/-!
# Values alike but for the order of fields

Two values are alike if they are the same with every map taken as a map:
its fields may stand in any order, at every depth, and nothing else may
differ. A value whose maps are sorted by key is the one form that all
values alike have in common (`sorted_eq_sorted_iff_alike`).

That a key stands once is what makes a list of fields a map; it is asked
for by `IsProper`, at every depth again.
-/

namespace KnowledgeGraph

/-! ## Fields -/

/-- **Sorting forgets in what order things came**, where the order sorted
by tells them apart. -/
theorem mergeSort_eq_of_perm {α : Type} {le : α → α → Bool}
    (trans : ∀ a b c, le a b = true → le b c = true → le a c = true)
    (total : ∀ a b, (le a b || le b a) = true) {l l' : List α} (h : l.Perm l')
    (antisymm : ∀ a ∈ l, ∀ b ∈ l, le a b = true → le b a = true → a = b) :
    l.mergeSort le = l'.mergeSort le := by
  have hsorted : (l.mergeSort le).Perm (l'.mergeSort le) :=
    (List.mergeSort_perm l le).trans (h.trans (List.mergeSort_perm l' le).symm)
  refine hsorted.eq_of_pairwise (fun a b ha hb => ?_) (List.pairwise_mergeSort trans total l)
    (List.pairwise_mergeSort trans total l')
  exact antisymm a (List.mem_mergeSort.1 ha) b (h.mem_iff.2 (List.mem_mergeSort.1 hb))

section Fields

variable {α β : Type} {fields others : List (String × α)}

/-- Under distinct keys, what stands in a map is what is found in it. -/
theorem mem_iff_lookup (h : (fields.map Prod.fst).Nodup) {k : String} {a : α} :
    (k, a) ∈ fields ↔ fields.lookup k = some a := by
  induction fields with
  | nil => simp
  | cons f rest ih =>
    obtain ⟨l, b⟩ := f
    rw [List.map_cons, List.nodup_cons] at h
    rcases eq_or_ne k l with rfl | hne
    · have habsent : (k, a) ∉ rest := fun hmem => h.1 (List.mem_map.2 ⟨_, hmem, rfl⟩)
      simp [habsent, eq_comm]
    · rw [lookup_cons_of_ne hne, ← ih h.2]
      simp [hne]

namespace Canonical

theorem sortByKey_perm (fields : List (String × α)) : (sortByKey fields).Perm fields :=
  List.mergeSort_perm ..

/-- What is done to the values of a map does not move its fields. -/
theorem sortByKey_map (f : α → β) (fields : List (String × α)) :
    sortByKey (fields.map fun e => (e.1, f e.2)) = (sortByKey fields).map fun e => (e.1, f e.2) :=
  (List.map_mergeSort (f := fun e : String × α => (e.1, f e.2)) fun _ _ _ _ => rfl).symm

/-- **Sorting by distinct keys forgets the order and nothing else.** -/
theorem sortByKey_eq_sortByKey_iff (h : (fields.map Prod.fst).Nodup) :
    sortByKey fields = sortByKey others ↔ fields.Perm others := by
  constructor
  · intro heq
    exact (sortByKey_perm fields).symm.trans (heq ▸ sortByKey_perm others)
  · intro hperm
    refine mergeSort_eq_of_perm (fun a b c hab hbc => ?_) (fun a b => ?_) hperm
      (fun a ha b hb hab hba => ?_)
    · exact decide_eq_true (le_trans (of_decide_eq_true hab) (of_decide_eq_true hbc))
    · simpa using le_total a.1 b.1
    · exact List.inj_on_of_nodup_map h ha hb
        (le_antisymm (of_decide_eq_true hab) (of_decide_eq_true hba))

end Canonical

end Fields

namespace Value

/-- Induction on a value: what holds of a list's items and of a map's
values holds of the list and of the map. -/
@[elab_as_elim] theorem induction {P : Value → Prop} (null : P .null) (bool : ∀ b, P (.bool b))
    (int : ∀ n, P (.int n)) (num : ∀ x, P (.num x)) (text : ∀ s, P (.text s))
    (list : ∀ items, (∀ v ∈ items, P v) → P (.list items))
    (map : ∀ fields, (∀ f ∈ fields, P f.2) → P (.map fields)) (v : Value) : P v :=
  @Value.rec P (fun items => ∀ v ∈ items, P v) (fun fields => ∀ f ∈ fields, P f.2) (fun f => P f.2)
    null bool int num text list map (by simp)
    (fun _ _ hv hitems => List.forall_mem_cons.2 ⟨hv, hitems⟩) (by simp)
    (fun _ _ hf hfields => List.forall_mem_cons.2 ⟨hf, hfields⟩) (fun _ _ h => h) v

/-! ## Proper values -/

mutual

/-- Every map, at every depth, has distinct keys. -/
def IsProper : Value → Prop
  | list items => ItemsProper items
  | map fields => (fields.map Prod.fst).Nodup ∧ FieldsProper fields
  | _ => True

def ItemsProper : List Value → Prop
  | [] => True
  | v :: rest => IsProper v ∧ ItemsProper rest

def FieldsProper : Fields → Prop
  | [] => True
  | (_, v) :: rest => IsProper v ∧ FieldsProper rest

end

theorem itemsProper_iff {items : List Value} : ItemsProper items ↔ ∀ v ∈ items, v.IsProper := by
  induction items with
  | nil => simp [ItemsProper]
  | cons v rest ih => simp [ItemsProper, ih]

theorem fieldsProper_iff {fields : Fields} : FieldsProper fields ↔ ∀ f ∈ fields, f.2.IsProper := by
  induction fields with
  | nil => simp [FieldsProper]
  | cons f rest ih => simp [FieldsProper, ih]

/-! ## Alike -/

mutual

/-- Whether two values are the same but for the order of fields: lists
item by item, maps key by key, everything else by equality. -/
def Alike : Value → Value → Prop
  | list as, list bs => ItemsAlike as bs
  | map as, map bs => (∀ k, k ∈ as.map Prod.fst ↔ k ∈ bs.map Prod.fst) ∧ FieldsAlike as bs
  | a, b => a = b

def ItemsAlike : List Value → List Value → Prop
  | [], [] => True
  | a :: as, b :: bs => Alike a b ∧ ItemsAlike as bs
  | _, _ => False

/-- Every field has one among others with its key and a value alike. -/
def FieldsAlike : Fields → Fields → Prop
  | [], _ => True
  | (k, a) :: as, bs => (∃ b, bs.lookup k = some b ∧ Alike a b) ∧ FieldsAlike as bs

end

theorem itemsAlike_iff {as bs : List Value} : ItemsAlike as bs ↔ List.Forall₂ Alike as bs := by
  induction as generalizing bs with
  | nil => cases bs <;> simp [ItemsAlike]
  | cons a as ih => cases bs <;> simp [ItemsAlike, ih]

theorem fieldsAlike_iff {as bs : Fields} :
    FieldsAlike as bs ↔ ∀ f ∈ as, ∃ b, bs.lookup f.1 = some b ∧ Alike f.2 b := by
  induction as with
  | nil => simp [FieldsAlike]
  | cons f as ih => simp [FieldsAlike, ih]

/-- What is alike is the same, or two lists with items alike, or two
maps. -/
theorem alike_cases {v w : Value} (h : Alike v w) :
    v = w ∨ (∃ as bs, v = .list as ∧ w = .list bs ∧ List.Forall₂ Alike as bs) ∨
      ∃ as bs, v = .map as ∧ w = .map bs ∧ Alike (.map as) (.map bs) := by
  cases v with
  | list as =>
    cases w with
    | list bs => exact Or.inr (Or.inl ⟨as, bs, rfl, rfl, itemsAlike_iff.1 h⟩)
    | _ => simp [Alike] at h
  | map as =>
    cases w with
    | map bs => exact Or.inr (Or.inr ⟨as, bs, rfl, rfl, h⟩)
    | _ => simp [Alike] at h
  | _ => exact Or.inl (by simpa [Alike] using h)

/-- **What is made of each field**, from its key and from its value up to
alikeness, comes out the same for maps that are alike, in another
order. -/
theorem map_perm_of_alike {β : Type} {p : String × Value → β} {as bs : Fields}
    (ha : (as.map Prod.fst).Nodup) (hb : (bs.map Prod.fst).Nodup) (h : Alike (.map as) (.map bs))
    (hp : ∀ f ∈ as, ∀ g ∈ bs, f.1 = g.1 → Alike f.2 g.2 → p f = p g) :
    (as.map p).Perm (bs.map p) := by
  rw [Alike, fieldsAlike_iff] at h
  let partner (f : String × Value) : String × Value := (f.1, (bs.lookup f.1).getD .null)
  have hpartner : ∀ f ∈ as, partner f ∈ bs ∧ Alike f.2 (partner f).2 := fun f hf => by
    obtain ⟨b, hlookup, halike⟩ := h.2 f hf
    have hb' : partner f = (f.1, b) := by simp [partner, hlookup]
    exact hb' ▸ ⟨(mem_iff_lookup hb).2 hlookup, halike⟩
  have hperm : (as.map partner).Perm bs := by
    have hkeys : (as.map partner).map Prod.fst = as.map Prod.fst := by simp [partner]
    rw [List.perm_ext_iff_of_nodup (List.Nodup.of_map Prod.fst (hkeys ▸ ha))
      (List.Nodup.of_map Prod.fst hb)]
    intro g
    constructor
    · intro hmem
      obtain ⟨f, hf, heq⟩ := List.mem_map.1 hmem
      exact heq ▸ (hpartner f hf).1
    · intro hmem
      obtain ⟨f, hf, hkey⟩ := List.mem_map.1 ((h.1 g.1).2 (List.mem_map.2 ⟨g, hmem, rfl⟩))
      exact List.mem_map.2 ⟨f, hf, List.inj_on_of_nodup_map hb (hpartner f hf).1 hmem hkey⟩
  have hmade : as.map p = (as.map partner).map p := by
    rw [List.map_map]
    exact List.map_congr_left fun f hf => hp f hf _ (hpartner f hf).1 rfl (hpartner f hf).2
  rw [hmade]
  exact hperm.map p

theorem length_eq_of_alike {as bs : Fields} (ha : (as.map Prod.fst).Nodup)
    (hb : (bs.map Prod.fst).Nodup) (h : Alike (.map as) (.map bs)) : as.length = bs.length := by
  have hkeys := map_perm_of_alike (p := Prod.fst) ha hb h fun _ _ _ _ hkey _ => hkey
  simpa using hkeys.length_eq

/-- Under each key, maps that are alike have nothing, or values alike. -/
theorem lookup_of_alike {as bs : Fields} (ha : (as.map Prod.fst).Nodup)
    (h : Alike (.map as) (.map bs)) (k : String) :
    (as.lookup k = none ∧ bs.lookup k = none) ∨
      ∃ a b, as.lookup k = some a ∧ bs.lookup k = some b ∧ Alike a b := by
  rw [Alike, fieldsAlike_iff] at h
  cases hfound : as.lookup k with
  | none =>
    rw [lookup_eq_none_iff, h.1 k, ← lookup_eq_none_iff] at hfound
    exact Or.inl ⟨rfl, hfound⟩
  | some a =>
    obtain ⟨b, hlookup, halike⟩ := h.2 (k, a) ((mem_iff_lookup ha).2 hfound)
    exact Or.inr ⟨a, b, rfl, hlookup, halike⟩

/-- Whether two fields have one key and values alike. -/
def FieldAlike (f g : String × Value) : Prop := f.1 = g.1 ∧ Alike f.2 g.2

/-- **Maps that are alike are so field by field**, in whatever order their
fields are listed, if it is the same order of keys for both. -/
theorem forall₂_fieldAlike {as bs xs ys : Fields} (hb : (bs.map Prod.fst).Nodup)
    (h : Alike (.map as) (.map bs)) (hxs : xs.Perm as) (hys : ys.Perm bs)
    (hkeys : xs.map Prod.fst = ys.map Prod.fst) : List.Forall₂ FieldAlike xs ys := by
  have hlength : xs.length = ys.length := by simpa using congrArg List.length hkeys
  rw [Alike, fieldsAlike_iff] at h
  refine List.forall₂_iff_get.2 ⟨hlength, fun i hi hj => ?_⟩
  have hkey : (xs.get ⟨i, hi⟩).1 = (ys.get ⟨i, hj⟩).1 := by
    have hat := List.getElem_of_eq hkeys (i := i) (by simpa using hi)
    rwa [List.getElem_map, List.getElem_map] at hat
  -- the value of a key is the one found under it
  obtain ⟨b, hlookup, halike⟩ := h.2 _ (hxs.mem_iff.1 (List.get_mem xs ⟨i, hi⟩))
  have hfound := (mem_iff_lookup hb).1 (hys.mem_iff.1 (List.get_mem ys ⟨i, hj⟩))
  rw [hkey, hfound] at hlookup
  exact ⟨hkey, Option.some.inj hlookup ▸ halike⟩

/-! ## The common form -/

mutual

/-- The value with the fields of every map in the order of their keys. -/
def sorted : Value → Value
  | list items => list (sortedItems items)
  | map fields => map (Canonical.sortByKey (sortedFields fields))
  | v => v

def sortedItems : List Value → List Value
  | [] => []
  | v :: rest => sorted v :: sortedItems rest

def sortedFields : Fields → Fields
  | [] => []
  | (k, v) :: rest => (k, sorted v) :: sortedFields rest

end

theorem sortedItems_eq_map (items : List Value) : sortedItems items = items.map sorted := by
  induction items with
  | nil => rfl
  | cons v rest ih => rw [sortedItems, ih, List.map_cons]

theorem sortedFields_eq_map (fields : Fields) :
    sortedFields fields = fields.map fun f => (f.1, f.2.sorted) := by
  induction fields with
  | nil => rfl
  | cons f rest ih => rw [sortedFields, ih, List.map_cons]

theorem map_fst_sortedFields (fields : Fields) :
    (sortedFields fields).map Prod.fst = fields.map Prod.fst := by
  simp [sortedFields_eq_map]

theorem mem_sortedFields {fields : Fields} {k : String} {w : Value} :
    (k, w) ∈ sortedFields fields ↔ ∃ v, (k, v) ∈ fields ∧ v.sorted = w := by
  simp [sortedFields_eq_map]

/-- Two maps sort to one if they have the same keys and under each key
values that sort to one. -/
theorem sortedFields_perm_iff {as bs : Fields} (ha : (as.map Prod.fst).Nodup)
    (hb : (bs.map Prod.fst).Nodup) :
    (sortedFields as).Perm (sortedFields bs) ↔
      (∀ k, k ∈ as.map Prod.fst ↔ k ∈ bs.map Prod.fst) ∧
        ∀ f ∈ as, ∃ b, bs.lookup f.1 = some b ∧ f.2.sorted = b.sorted := by
  constructor
  · intro hperm
    constructor
    · intro k
      rw [← map_fst_sortedFields as, ← map_fst_sortedFields bs]
      exact (hperm.map Prod.fst).mem_iff
    · rintro ⟨k, a⟩ hmem
      obtain ⟨b, hbmem, hsorted⟩ :=
        mem_sortedFields.1 (hperm.mem_iff.1 (mem_sortedFields.2 ⟨a, hmem, rfl⟩))
      exact ⟨b, (mem_iff_lookup hb).1 hbmem, hsorted.symm⟩
  · rintro ⟨hkeys, hvalues⟩
    have hnodup : ∀ {fields : Fields}, (fields.map Prod.fst).Nodup → (sortedFields fields).Nodup :=
      fun h => List.Nodup.of_map Prod.fst ((map_fst_sortedFields _).symm ▸ h)
    rw [List.perm_ext_iff_of_nodup (hnodup ha) (hnodup hb)]
    rintro ⟨k, w⟩
    rw [mem_sortedFields, mem_sortedFields]
    constructor
    · rintro ⟨a, hmem, rfl⟩
      obtain ⟨b, hlookup, hsorted⟩ := hvalues (k, a) hmem
      exact ⟨b, (mem_iff_lookup hb).2 hlookup, hsorted.symm⟩
    · rintro ⟨b, hmem, rfl⟩
      obtain ⟨⟨l, a⟩, hamem, hl⟩ := List.mem_map.1 ((hkeys k).2 (List.mem_map.2 ⟨_, hmem, rfl⟩))
      obtain rfl : l = k := hl
      obtain ⟨b', hlookup, hsorted⟩ := hvalues (l, a) hamem
      rw [(mem_iff_lookup hb).1 hmem] at hlookup
      obtain rfl := Option.some.inj hlookup
      exact ⟨a, hamem, hsorted⟩

theorem sortedItems_eq_iff {as bs : List Value}
    (h : ∀ a ∈ as, ∀ b ∈ bs, a.sorted = b.sorted ↔ Alike a b) :
    sortedItems as = sortedItems bs ↔ ItemsAlike as bs := by
  induction as generalizing bs with
  | nil => cases bs <;> simp [sortedItems, ItemsAlike]
  | cons a as ih =>
    cases bs with
    | nil => simp [sortedItems, ItemsAlike]
    | cons b bs =>
      rw [sortedItems, sortedItems, ItemsAlike, List.cons.injEq,
        h a List.mem_cons_self b List.mem_cons_self,
        ih fun a ha b hb => h a (List.mem_cons_of_mem _ ha) b (List.mem_cons_of_mem _ hb)]

/-- **Two proper values have one sorted form exactly if they are
alike.** -/
theorem sorted_eq_sorted_iff_alike {a b : Value} (ha : a.IsProper) (hb : b.IsProper) :
    a.sorted = b.sorted ↔ Alike a b := by
  induction a using Value.induction generalizing b with
  | null => cases b <;> simp [sorted, Alike]
  | bool => cases b <;> simp [sorted, Alike]
  | int => cases b <;> simp [sorted, Alike]
  | num => cases b <;> simp [sorted, Alike]
  | text => cases b <;> simp [sorted, Alike]
  | list as ih =>
    cases b with
    | list bs =>
      rw [IsProper, itemsProper_iff] at ha hb
      rw [sorted, sorted, list.injEq, Alike]
      exact sortedItems_eq_iff fun a hamem b hbmem => ih a hamem (ha a hamem) (hb b hbmem)
    | _ => simp [sorted, Alike]
  | map as ih =>
    cases b with
    | map bs =>
      rw [IsProper, fieldsProper_iff] at ha hb
      rw [sorted, sorted, map.injEq,
        Canonical.sortByKey_eq_sortByKey_iff ((map_fst_sortedFields as).symm ▸ ha.1),
        sortedFields_perm_iff ha.1 hb.1, Alike, fieldsAlike_iff]
      -- under one key both values are proper, so the induction applies
      refine and_congr_right fun _ => forall₂_congr fun f hf => exists_congr fun b => ?_
      refine and_congr_right fun hlookup => ih f hf (ha.2 f hf) (hb.2 (f.1, b) ?_)
      exact (mem_iff_lookup hb.1).2 hlookup
    | _ => simp [sorted, Alike]

end Value

end KnowledgeGraph
