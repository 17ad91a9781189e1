import KnowledgeGraph.Plan.Basic
import KnowledgeGraph.Proofs.Input.Reading
/-!
# Plans as records

A plan is held against rules when it is put together: each field is of its
kind, and what is left is a share. Here a plan is taken apart into its
fields again (`Plan.fields`), and it is shown that the rules let it pass as
it is (`Plan.ofRecord_fields`), as long as the filters in its steps are
properties that pass.
-/

namespace KnowledgeGraph

open Checked

/-- What there may be, as a value. -/
def Value.ofOption {α : Type} (value : α → Value) (a : Option α) : Value :=
  (a.map value).getD .null

/-- What there may be is read where it is there. -/
theorem Reader.orNull_ofOption {α : Type} {reader : Reader α} {value : α → Value} {o : Option α}
    (hnull : ∀ a, value a ≠ .null) (h : ∀ a ∈ o, reader (.value (value a)) = accept a) :
    orNull reader (.value (.ofOption value o)) = accept o := by
  cases o with
  | none => rfl
  | some a =>
    have hread : orNull reader (.value (value a)) = some <$> reader (.value (value a)) := by
      unfold orNull
      split
      · next heq => exact absurd (Raw.value.inj heq) (hnull a)
      · rfl
    exact hread.trans (map_eq_accept_iff.2 ⟨a, h a rfl, rfl⟩)

/-- Values that are read one by one are read as a list. -/
theorem Reader.list_map {α : Type} {reader : Reader α} {value : α → Value} {as : List α}
    (h : ∀ a ∈ as, reader (.value (value a)) = accept a) :
    list reader (.value (.list (as.map value))) = accept as := by
  refine list_eq_accept_iff.2 ⟨_, rfl, ?_⟩
  rw [List.forall₂_map_left_iff, List.forall₂_map_left_iff]
  exact List.forall₂_same.2 h

namespace PlanStep

/-- A step as a map of its fields. -/
def fields (s : PlanStep) : Fields :=
  [("operation", .text s.operation), ("entity_type", .ofOption .text s.entityType),
    ("property_filters", .ofOption .map s.filters), ("limit", .ofOption .int s.limit),
    ("offset", .ofOption .int s.offset), ("cost", .num s.cost), ("selectivity", .num s.selectivity)]

/-- **A step passes** if its filters do. -/
theorem ofRecord_fields {s : PlanStep}
    (h : ∀ fs ∈ s.filters, Reader.properties (.value (.map fs)) = accept fs) :
    ofRecord (.ofFields s.fields) = accept s := by
  have htype : Reader.orNull Reader.text (.value (.ofOption .text s.entityType)) =
      accept s.entityType := Reader.orNull_ofOption (by simp) fun _ _ => rfl
  have hfilters : Reader.orNull Reader.properties (.value (.ofOption .map s.filters)) =
      accept s.filters := Reader.orNull_ofOption (by simp) h
  have hinteger : ∀ n : Option Int, Reader.orNull Reader.integer (.value (.ofOption .int n)) =
      accept n := fun _ => Reader.orNull_ofOption (by simp) fun _ _ => rfl
  have hoperation : Reader.text (.value (.text s.operation)) = accept s.operation := rfl
  have hnumber : ∀ x : Binary64, Reader.number (.value (.num x)) = accept x := fun _ => rfl
  rw [ofRecord, Record.required_eq_accept_iff.2 ⟨_, rfl, hoperation⟩,
    Record.withDefault_eq_accept_iff.2 (.inr ⟨_, rfl, htype⟩),
    Record.withDefault_eq_accept_iff.2 (.inr ⟨_, rfl, hfilters⟩),
    Record.withDefault_eq_accept_iff.2 (.inr ⟨_, rfl, hinteger s.limit⟩),
    Record.withDefault_eq_accept_iff.2 (.inr ⟨_, rfl, hinteger s.offset⟩),
    Record.withDefault_eq_accept_iff.2 (.inr ⟨_, rfl, hnumber s.cost⟩),
    Record.withDefault_eq_accept_iff.2 (.inr ⟨_, rfl, hnumber s.selectivity⟩)]
  rfl

end PlanStep

namespace Plan

/-- A plan as a map of its fields. -/
def fields (p : Plan) : Fields :=
  [("steps", .list (p.steps.map fun s => .map s.fields)), ("estimated_cost", .num p.cost),
    ("estimated_selectivity", .num p.selectivity), ("estimated_cardinality", .int p.cardinality),
    ("recommended_indexes", .list (p.indexes.map .text)),
    ("index_scan_recommended", .bool p.scansIndex),
    ("optimizations_applied", .list (p.optimizations.map .text))]

/-- The share that a plan leaves passes. -/
theorem read_selectivity (p : Plan) : Share.read (.value (.num p.selectivity)) =
    accept ⟨p.selectivity, p.selectivity_pos, p.selectivity_le_one⟩ := by
  refine andThen_eq_accept_iff.2 ⟨p.selectivity, rfl, ?_⟩
  rw [dif_pos p.selectivity_le_one, dif_pos p.selectivity_pos]

/-- **A plan passes** if the filters in its steps do. -/
theorem ofRecord_fields {p : Plan}
    (h : ∀ s ∈ p.steps, ∀ fs ∈ s.filters, Reader.properties (.value (.map fs)) = accept fs) :
    ofRecord (.ofFields p.fields) = accept p := by
  have hsteps : Reader.list (Reader.record .planStep PlanStep.ofRecord)
      (.value (.list (p.steps.map fun s => .map s.fields))) = accept p.steps := by
    refine Reader.list_map fun s hs => ?_
    rw [Reader.record, Raw.record?_map, Option.elim_some]
    exact PlanStep.ofRecord_fields (h s hs)
  have htexts : ∀ texts : List String, Reader.list Reader.text (.value (.list (texts.map .text))) =
      accept texts := fun _ => Reader.list_map fun _ _ => rfl
  have hcost : Reader.number (.value (.num p.cost)) = accept p.cost := rfl
  have hcardinality : Reader.integer (.value (.int p.cardinality)) = accept p.cardinality := rfl
  have hscans : Reader.truth (.value (.bool p.scansIndex)) = accept p.scansIndex := rfl
  rw [ofRecord, Record.withDefault_eq_accept_iff.2 (.inr ⟨_, rfl, hsteps⟩),
    Record.withDefault_eq_accept_iff.2 (.inr ⟨_, rfl, hcost⟩),
    Record.withDefault_eq_accept_iff.2 (.inr ⟨_, rfl, p.read_selectivity⟩),
    Record.withDefault_eq_accept_iff.2 (.inr ⟨_, rfl, hcardinality⟩),
    Record.withDefault_eq_accept_iff.2 (.inr ⟨_, rfl, htexts p.indexes⟩),
    Record.withDefault_eq_accept_iff.2 (.inr ⟨_, rfl, hscans⟩),
    Record.withDefault_eq_accept_iff.2 (.inr ⟨_, rfl, htexts p.optimizations⟩)]
  rfl

end Plan

end KnowledgeGraph
