import KnowledgeGraph.Input.Property
import KnowledgeGraph.Keyed
import Mathlib.Data.List.Forall2
/-!
# What is read, and read again

A record is accepted exactly if each of its fields is
(`Checked.seq_eq_accept_iff`), and a list or a map exactly if everything in
it is (`Reader.list_eq_accept_iff`, `Reader.bag_eq_accept_iff`).

Reading turns raw input into values, and values are raw input themselves.
A property that was read is read as itself from then on
(`Reader.property_value`): what its levels were held against once they
pass again. So whatever is made of accepted properties is accepted.
-/

namespace KnowledgeGraph

namespace Checked

variable {α β : Type} {x : Checked α} {f : Checked (α → β)} {a a' : α} {b : β} {issues : List Issue}

/-! ## Acceptance -/

theorem accept_inj : accept a = accept a' ↔ a = a' :=
  ⟨fun h => Except.ok.inj (congrArg outcome h), congrArg accept⟩

theorem refuse_ne_accept : refuse issues ≠ accept a := fun h => by cases congrArg outcome h

@[simp] theorem map_accept (g : α → β) : g <$> accept a = accept (g a) := rfl

@[simp] theorem map_refuse (g : α → β) : g <$> (refuse issues : Checked α) = refuse issues := rfl

@[simp] theorem accept_seq_accept (g : α → β) : accept g <*> accept a = accept (g a) := rfl

@[simp] theorem accept_seq_refuse (g : α → β) :
    accept g <*> (refuse issues : Checked α) = refuse issues := rfl

@[simp] theorem refuse_seq_accept :
    (refuse issues : Checked (α → β)) <*> accept a = refuse issues := rfl

@[simp] theorem inside_accept (place : Place) : (accept a).inside place = accept a := rfl

/-- Input is accepted, or refused for some issues. -/
theorem eq_accept_or_refuse (x : Checked α) :
    (∃ a, x = accept a) ∨ ∃ issues, x = refuse issues := by
  obtain ⟨outcome⟩ := x
  cases outcome with
  | ok a => exact Or.inl ⟨a, rfl⟩
  | error issues => exact Or.inr ⟨issues, rfl⟩

/-- What is accepted beforehand is only applied to. -/
theorem accept_seq (g : α → β) (x : Checked α) : accept g <*> x = g <$> x := by
  rcases eq_accept_or_refuse x with ⟨a, rfl⟩ | ⟨issues, rfl⟩ <;> rfl

theorem seq_accept (f : Checked (α → β)) (a : α) : f <*> accept a = (fun g => g a) <$> f := by
  rcases eq_accept_or_refuse f with ⟨g, rfl⟩ | ⟨issues, rfl⟩ <;> rfl

theorem map_map {γ : Type} (g : β → γ) (f : α → β) (x : Checked α) :
    g <$> f <$> x = (fun a => g (f a)) <$> x := by
  rcases eq_accept_or_refuse x with ⟨a, rfl⟩ | ⟨issues, rfl⟩ <;> rfl

theorem map_eq_accept_iff {g : α → β} : g <$> x = accept b ↔ ∃ a, x = accept a ∧ g a = b := by
  rcases eq_accept_or_refuse x with ⟨a, rfl⟩ | ⟨issues, rfl⟩
  · simp [accept_inj]
  · simp [refuse_ne_accept]

/-- **A function and its argument are accepted together.** -/
theorem seq_eq_accept_iff :
    f <*> x = accept b ↔ ∃ g a, f = accept g ∧ x = accept a ∧ g a = b := by
  rcases eq_accept_or_refuse f with ⟨g, rfl⟩ | ⟨issues, rfl⟩
  · rcases eq_accept_or_refuse x with ⟨a, rfl⟩ | ⟨issues, rfl⟩
    · simp [accept_inj]
    · simp [refuse_ne_accept]
  · rcases eq_accept_or_refuse x with ⟨a, rfl⟩ | ⟨issues', rfl⟩
    · simp [refuse_ne_accept]
    · exact iff_of_false refuse_ne_accept fun ⟨_, _, h, _⟩ => refuse_ne_accept h

theorem inside_eq_accept_iff {place : Place} : x.inside place = accept a ↔ x = accept a := by
  rcases eq_accept_or_refuse x with ⟨a, rfl⟩ | ⟨issues, rfl⟩
  · rfl
  · exact iff_of_false refuse_ne_accept refuse_ne_accept

theorem andThen_eq_accept_iff {rule : α → Checked β} :
    x.andThen rule = accept b ↔ ∃ a, x = accept a ∧ rule a = accept b := by
  rcases eq_accept_or_refuse x with ⟨a, rfl⟩ | ⟨issues, rfl⟩
  · simp [andThen, accept]
  · exact iff_of_false refuse_ne_accept fun ⟨_, h, _⟩ => refuse_ne_accept h

/-- **A list is accepted if all its items are.** -/
theorem all_eq_accept_iff {xs : List (Checked α)} {as : List α} :
    all xs = accept as ↔ List.Forall₂ (fun x a => x = accept a) xs as := by
  induction xs generalizing as with
  | nil =>
    rw [all, accept_inj, List.forall₂_nil_left_iff]
    exact eq_comm
  | cons x rest ih =>
    have hseq : all (x :: rest) = List.cons <$> x <*> all rest := rfl
    rw [hseq, seq_eq_accept_iff, List.forall₂_cons_left_iff]
    constructor
    · rintro ⟨g, as', hg, has, rfl⟩
      obtain ⟨a, rfl, rfl⟩ := map_eq_accept_iff.1 hg
      exact ⟨a, as', rfl, ih.1 has, rfl⟩
    · rintro ⟨a, as', rfl, has, rfl⟩
      exact ⟨List.cons a, as', rfl, ih.2 has, rfl⟩

end Checked

/-! ## Fields -/

namespace Record

open Checked

variable {α : Type} {reader : Reader α} {record : Record} {name : String} {raw : Raw} {a : α}

theorem required_of_lookup (h : record.lookup name = some raw) :
    record.required name reader = (reader raw).inside (.field name) := by
  rw [required, h]

/-- A field in front hides none with another name. -/
theorem required_cons_of_ne {other : String} (h : name ≠ other) :
    Record.required ((other, raw) :: record) name reader = record.required name reader := by
  rw [required, required, lookup_cons_of_ne h]

/-- Only what is found under its name counts for a field. -/
theorem withDefault_congr {other : Record} {default : α}
    (h : record.lookup name = other.lookup name) :
    record.withDefault name default reader = other.withDefault name default reader := by
  rw [withDefault, withDefault, h]

theorem withDefault_cons_of_ne {other : String} {default : α} (h : name ≠ other) :
    Record.withDefault ((other, raw) :: record) name default reader =
      record.withDefault name default reader :=
  withDefault_congr (lookup_cons_of_ne h raw)

/-- A field that has to be there is accepted if it is there and passes. -/
theorem required_eq_accept_iff : record.required name reader = accept a ↔
    ∃ raw, record.lookup name = some raw ∧ reader raw = accept a := by
  unfold required
  cases record.lookup name with
  | none => exact iff_of_false refuse_ne_accept (by simp)
  | some raw => simp [inside_eq_accept_iff]

/-- A field that has a default is accepted if it passes where it is there. -/
theorem withDefault_eq_accept_iff {default : α} :
    record.withDefault name default reader = accept a ↔
      (record.lookup name = none ∧ default = a) ∨
        ∃ raw, record.lookup name = some raw ∧ reader raw = accept a := by
  unfold withDefault
  cases record.lookup name with
  | none => simp [accept_inj]
  | some raw => simp [inside_eq_accept_iff]

end Record

namespace Reader

open Checked

variable {α : Type} {reader : Reader α} {raw : Raw}

/-! ## Lists and maps -/

/-- Items are accepted wherever they stand. -/
theorem all_zipIdx_eq_accept_iff {items : List Raw} {as : List α} (start : ℕ) :
    all ((items.zipIdx start).map fun item => (reader item.1).inside (.item item.2)) = accept as ↔
      List.Forall₂ (fun item a => reader item = accept a) items as := by
  simp only [all_eq_accept_iff, List.forall₂_map_left_iff, inside_eq_accept_iff]
  induction items generalizing as start with
  | nil => simp [List.forall₂_nil_left_iff]
  | cons item rest ih =>
    rw [List.zipIdx_cons, List.forall₂_cons_left_iff, List.forall₂_cons_left_iff]
    simp only [ih]

theorem list_eq_accept_iff {as : List α} : list reader raw = accept as ↔
    ∃ items, raw.items? = some items ∧
      List.Forall₂ (fun item a => reader item = accept a) items as := by
  unfold list
  cases raw.items? with
  | none => exact iff_of_false refuse_ne_accept (by simp)
  | some items => simp [all_zipIdx_eq_accept_iff]

theorem propertyName_eq_accept_iff {name : Value} {s : String} :
    propertyName name = accept s ↔ name = .text s := by
  cases name <;> simp [propertyName, accept_inj, refuse_ne_accept]

/-- A field is accepted if its name is a text and what stands under it is
accepted. -/
theorem field_eq_accept_iff {property : Reader Value} {entry : Value × Raw} {f : String × Value} :
    Prod.mk <$> propertyName entry.1 <*> (property entry.2).inside (.under entry.1) = accept f ↔
      entry.1 = .text f.1 ∧ property entry.2 = accept f.2 := by
  rw [seq_eq_accept_iff]
  simp only [map_eq_accept_iff, inside_eq_accept_iff, propertyName_eq_accept_iff]
  constructor
  · rintro ⟨_, v, ⟨s, hs, rfl⟩, hv, rfl⟩
    exact ⟨hs, hv⟩
  · rintro ⟨hs, hv⟩
    exact ⟨_, f.2, ⟨f.1, hs, rfl⟩, hv, rfl⟩

/-- **A bag is accepted if all its fields are.** -/
theorem bag_eq_accept_iff {property : Reader Value} {entries : List (Value × Raw)}
    {fields : Fields} : bag property entries = accept fields ↔
      List.Forall₂ (fun entry f => entry.1 = .text f.1 ∧ property entry.2 = accept f.2)
        entries fields := by
  unfold bag
  simp only [all_eq_accept_iff, List.forall₂_map_left_iff, field_eq_accept_iff]

/-! ## Properties -/

/-- What comes near to a kind is accepted as it is accepted of that kind. -/
theorem ofNearest_eq_accept_iff {kind : PropertyKind} {x : Checked α} {a : α} :
    ofNearest kind x = accept a ↔ x = accept a := by
  rcases eq_accept_or_refuse x with ⟨b, rfl⟩ | ⟨issues, rfl⟩
  · rfl
  · exact iff_of_false refuse_ne_accept refuse_ne_accept

/-- Each of some values that were read satisfies what all that were read
satisfy. -/
theorem forall_mem_of_forall₂ {α β : Type} {r : α → β → Prop} {p : β → Prop} {xs : List α}
    {ys : List β} (h : List.Forall₂ r xs ys) (hr : ∀ x y, r x y → p y) : ∀ y ∈ ys, p y := by
  induction h with
  | nil => simp
  | cons hxy _ ih => exact List.forall_mem_cons.2 ⟨hr _ _ hxy, ih⟩

/-- A list of values that pass with a level less passes. -/
theorem property_list {levels : ℕ} {vs : List Value}
    (h : ∀ v ∈ vs, property levels (.value v) = accept v) :
    property (levels + 1) (.value (.list vs)) = accept (.list vs) := by
  refine ofNearest_eq_accept_iff.2 (map_eq_accept_iff.2 ⟨vs, ?_, rfl⟩)
  exact (all_zipIdx_eq_accept_iff 0).2 (List.forall₂_map_left_iff.2 (List.forall₂_same.2 h))

/-- Fields that hold such values make a bag. -/
theorem bag_fields {levels : ℕ} {fields : Fields}
    (h : ∀ f ∈ fields, property levels (.value f.2) = accept f.2) :
    bag (property levels) (fields.map fun f => (.text f.1, .value f.2)) = accept fields :=
  bag_eq_accept_iff.2
    (List.forall₂_map_left_iff.2 (List.forall₂_same.2 fun f hf => ⟨rfl, h f hf⟩))

/-- And a map of such fields passes. -/
theorem property_map {levels : ℕ} {fields : Fields}
    (h : ∀ f ∈ fields, property levels (.value f.2) = accept f.2) :
    property (levels + 1) (.value (.map fields)) = accept (.map fields) :=
  ofNearest_eq_accept_iff.2 (map_eq_accept_iff.2 ⟨fields, bag_fields h, rfl⟩)

/-- **What was read as a property reads as itself.** -/
theorem property_value {levels : ℕ} {raw : Raw} {v : Value}
    (h : property levels raw = accept v) : property levels (.value v) = accept v := by
  induction levels generalizing raw v with
  | zero => exact absurd h refuse_ne_accept
  | succ levels ih =>
    have hread := h
    unfold property at hread
    split at hread
    · -- a list, whose items are read with a level less
      obtain ⟨vs, hvs, rfl⟩ := map_eq_accept_iff.1 (ofNearest_eq_accept_iff.1 hread)
      exact property_list (forall_mem_of_forall₂ ((all_zipIdx_eq_accept_iff 0).1 hvs) fun _ _ => ih)
    · obtain ⟨fields, hfields, rfl⟩ := map_eq_accept_iff.1 (ofNearest_eq_accept_iff.1 hread)
      exact property_map
        (forall_mem_of_forall₂ (bag_eq_accept_iff.1 hfields) fun _ _ hf => ih hf.2)
    · -- a value that holds no others is read as it is
      obtain rfl := accept_inj.1 hread
      exact h
    · exact absurd hread refuse_ne_accept

/-- **Properties pass if each of them does**, on its own. -/
theorem properties_value_iff {fields : Fields} :
    properties (.value (.map fields)) = accept fields ↔
      ∀ f ∈ fields, property mostLevels (.value f.2) = accept f.2 := by
  refine ⟨fun h => ?_, bag_fields⟩
  exact forall_mem_of_forall₂ (bag_eq_accept_iff.1 h) fun _ _ hf => property_value hf.2

/-- **Properties that were read read as themselves.** -/
theorem properties_value {raw : Raw} {fields : Fields} (h : properties raw = accept fields) :
    properties (.value (.map fields)) = accept fields := by
  unfold properties at h
  split at h
  · exact bag_fields
      (forall_mem_of_forall₂ (bag_eq_accept_iff.1 h) fun _ _ hf => property_value hf.2)
  · exact absurd h refuse_ne_accept

/-- Properties that are a field, or left out, read as themselves. -/
theorem properties_value_of_field {record : Record} {name : String} {fields : Fields}
    (h : record.withDefault name [] properties = accept fields) :
    properties (.value (.map fields)) = accept fields := by
  rcases Record.withDefault_eq_accept_iff.1 h with ⟨-, rfl⟩ | ⟨raw, -, hraw⟩
  · rfl
  · exact properties_value hraw

end Reader

end KnowledgeGraph
