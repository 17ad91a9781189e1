import KnowledgeGraph.Plan.Planner
import KnowledgeGraph.Plan.Readable
import KnowledgeGraph.Proofs.Value.Alike
import Mathlib.Data.Prod.Lex
/-!
# What a plan shows of the filters

A plan takes filters in an order that their keys and classes decide, and
what people read of it names the keys and not the values. So queries
that differ in the order of fields only, at any depth, have plans of one
outline (`sameOutline_planFor`), which read the same
(`Plan.SameOutline.readable_eq`), though their plans are not the same.
-/

namespace KnowledgeGraph

namespace Planner

/-! ## The order of filters -/

/-- A filter's key and class. -/
def profile (filter : String × Value) : String × FilterClass :=
  (filter.1, .ofFilter filter.1 filter.2)

/-- The place of a class among the others by how selective it is. -/
def rank (c : FilterClass) : ℤ := c.share.key.getD 0

theorem key_share (c : FilterClass) : c.share.key = some (rank c) := by
  cases c <;> decide +kernel

theorem share_lt_share_iff (c d : FilterClass) : c.share < d.share ↔ rank c < rank d := by
  rw [Binary64.lt_iff, key_share c, key_share d]
  simp

theorem share_le_share_iff (c d : FilterClass) : c.share ≤ d.share ↔ rank c ≤ rank d := by
  rw [Binary64.le_iff, key_share c, key_share d]
  simp

/-- Whether a filter of one profile goes before one of another. -/
def precedes (a b : String × FilterClass) : Bool :=
  decide (a.2.share < b.2.share) || (!decide (b.2.share < a.2.share) && decide (a.1 ≤ b.1))

/-- Filters stand in the order of their classes, and in a class in the
order of their keys. -/
theorem precedes_iff (a b : String × FilterClass) :
    precedes a b = true ↔ toLex (rank a.2, a.1) ≤ toLex (rank b.2, b.1) := by
  rw [Prod.Lex.le_iff]
  simp only [precedes, share_lt_share_iff, Bool.or_eq_true, Bool.and_eq_true, Bool.not_eq_true',
    decide_eq_true_eq, decide_eq_false_iff_not]
  constructor
  · rintro (hlt | ⟨hle, hkey⟩)
    · exact Or.inl hlt
    · rcases lt_or_eq_of_le (not_lt.1 hle) with hlt | heq
      · exact Or.inl hlt
      · exact Or.inr ⟨heq, hkey⟩
  · rintro (hlt | ⟨heq, hkey⟩)
    · exact Or.inl hlt
    · exact Or.inr ⟨not_lt.2 heq.le, hkey⟩

theorem precedes_trans (a b c : String × FilterClass) (hab : precedes a b = true)
    (hbc : precedes b c = true) : precedes a c = true := by
  rw [precedes_iff] at hab hbc ⊢
  exact le_trans hab hbc

theorem precedes_total (a b : String × FilterClass) : (precedes a b || precedes b a) = true := by
  rw [Bool.or_eq_true, precedes_iff, precedes_iff]
  exact le_total _ _

theorem map_profile_ordered (filters : Fields) :
    (ordered filters).map profile = (filters.map profile).mergeSort precedes :=
  List.map_mergeSort fun _ _ _ _ => rfl

theorem profile_congr {f g : String × Value} (hkey : f.1 = g.1) (h : Value.Alike f.2 g.2) :
    profile f = profile g := by
  obtain ⟨k, v⟩ := f
  obtain ⟨l, w⟩ := g
  obtain rfl : k = l := hkey
  rcases Value.alike_cases h with heq | ⟨as, bs, hv, hw, -⟩ | ⟨as, bs, hv, hw, -⟩
  · rw [show v = w from heq]
  · rw [show v = .list as from hv, show w = .list bs from hw]
    rfl
  · rw [show v = .map as from hv, show w = .map bs from hw]
    rfl

/-- **Filters that are alike are ordered alike.** -/
theorem profile_ordered_congr {as bs : Fields} (ha : (as.map Prod.fst).Nodup)
    (hb : (bs.map Prod.fst).Nodup) (h : Value.Alike (.map as) (.map bs)) :
    (ordered as).map profile = (ordered bs).map profile := by
  have hkeys : ((as.map profile).map Prod.fst).Nodup := by
    rw [List.map_map]
    exact ha
  rw [map_profile_ordered, map_profile_ordered]
  refine mergeSort_eq_of_perm precedes_trans precedes_total
    (Value.map_perm_of_alike ha hb h fun f _ g _ hkey halike => profile_congr hkey halike)
    (fun a ha b hb hab hba => ?_)
  rw [precedes_iff] at hab hba
  exact List.inj_on_of_nodup_map hkeys ha hb (Prod.mk.inj (toLex_inj.1 (le_antisymm hab hba))).2

end Planner

/-! ## What is shown of a step -/

namespace PlanStep

/-- A step with the values of its filters left out. -/
def outline (s : PlanStep) : PlanStep :=
  { s with filters := s.filters.map fun filters => filters.map fun f => (f.1, .null) }

/-- The values of filters are not shown. -/
theorem lines_outline (number : ℕ) (s : PlanStep) : s.outline.lines number = s.lines number := by
  have hfilters : s.outline.filterLines = s.filterLines := by
    unfold filterLines outline
    cases s.filters with
    | none => rfl
    | some filters => cases filters <;> simp [Option.filter, Function.comp_def]
  unfold lines
  rw [hfilters]
  rfl

end PlanStep

namespace Plan

/-- Two plans that are the same but for the values of the filters in their
steps. -/
structure SameOutline (p q : Plan) : Prop where
  steps : p.steps.map PlanStep.outline = q.steps.map PlanStep.outline
  cost : p.cost = q.cost
  selectivity : p.selectivity = q.selectivity
  cardinality : p.cardinality = q.cardinality
  indexes : p.indexes = q.indexes
  scansIndex : p.scansIndex = q.scansIndex
  optimizations : p.optimizations = q.optimizations

/-- **What people read of a plan** is its estimates and its steps without
the values of filters. -/
theorem SameOutline.readable_eq {p q : Plan} (h : p.SameOutline q) : p.readable = q.readable := by
  have hsteps : p.stepLines = q.stepLines := by
    have hshown : ∀ p : Plan, p.stepLines = do
        let steps ← ((p.steps.map PlanStep.outline).zipIdx 1).mapM fun s => s.1.lines s.2
        return "Steps:" :: steps.flatten := by
      intro p
      rw [stepLines, List.zipIdx_map, List.mapM_map]
      simp only [Function.comp_def, Prod.map, PlanStep.lines_outline, id]
    rw [hshown p, hshown q, h.steps]
  unfold readable estimateLines indexLines optimizationLines
  rw [hsteps, h.cost, h.selectivity, h.cardinality, h.indexes, h.optimizations]

end Plan

namespace Planner

variable {a b : Query}

theorem outline_filterStep (rows : Binary64) (filter : String × Value) :
    (filterStep rows filter).outline =
      .filter filter.1 .null (filterCost * rows) (profile filter).2.share := rfl

theorem indexes_eq (q : Query) :
    indexes q = (((ordered q.filters).map profile).filter fun p =>
      decide (p.2.share < indexThreshold)).map Prod.fst := by
  rw [List.filter_map, List.map_map]
  rfl

theorem outline_filterSteps (rows : Binary64) (q : Query) :
    (filterSteps rows q).map PlanStep.outline =
      ((ordered q.filters).map profile).map fun p =>
        .filter p.1 .null (filterCost * rows) p.2.share := by
  rw [filterSteps, List.map_map, List.map_map]
  exact List.map_congr_left fun f _ => outline_filterStep rows f

/-- Costs and selectivities are shown, so outlines have them. -/
theorem estimates_congr {steps steps' : List PlanStep}
    (h : steps.map PlanStep.outline = steps'.map PlanStep.outline) :
    totalCost steps = totalCost steps' ∧ product steps = product steps' := by
  have hcost : ∀ steps : List PlanStep,
      steps.map PlanStep.cost = (steps.map PlanStep.outline).map PlanStep.cost := fun steps => by
    rw [List.map_map]
    rfl
  have hselectivity : ∀ steps : List PlanStep,
      steps.map PlanStep.selectivity = (steps.map PlanStep.outline).map PlanStep.selectivity :=
    fun steps => by
      rw [List.map_map]
      rfl
  unfold totalCost product
  rw [hcost steps, hcost steps', hselectivity steps, hselectivity steps', h]
  exact ⟨rfl, rfl⟩

/-- **Queries that ask for the same have one plan**, but for the values of
filters. -/
theorem sameOutline_planFor (rows : Binary64) (htype : a.entityType = b.entityType)
    (hsize : a.pageSize = b.pageSize) (hskip : a.skip = b.skip)
    (ha : (a.filters.map Prod.fst).Nodup) (hb : (b.filters.map Prod.fst).Nodup)
    (h : Value.Alike (.map a.filters) (.map b.filters)) :
    (planFor rows a).SameOutline (planFor rows b) := by
  have hordered := profile_ordered_congr ha hb h
  have hlength := Value.length_eq_of_alike ha hb h
  have hscan : scanSteps rows a = scanSteps rows b := by
    rw [scanSteps, scanSteps, Query.scannedType?, Query.scannedType?, htype]
  have hpage : pageSteps a = pageSteps b := by rw [pageSteps, pageSteps, hsize, hskip]
  have hsteps : (steps rows a).map PlanStep.outline = (steps rows b).map PlanStep.outline := by
    simp only [steps, List.map_append, outline_filterSteps, hordered, hscan, hpage]
  have hindexes : indexes a = indexes b := by rw [indexes_eq, indexes_eq, hordered]
  obtain ⟨hcost, hproduct⟩ := estimates_congr hsteps
  have hempty : a.filters.isEmpty = b.filters.isEmpty := by
    rw [Bool.eq_iff_iff, List.isEmpty_iff_length_eq_zero, List.isEmpty_iff_length_eq_zero, hlength]
  have hoptimizations : optimizations a = optimizations b := by
    rw [optimizations, optimizations, hempty, hlength, hindexes]
  exact
    { steps := hsteps
      cost := hcost
      selectivity := congrArg clamp hproduct
      cardinality := congrArg (fun x => cardinality rows (clamp x)) hproduct
      indexes := hindexes
      scansIndex := congrArg (fun keys : List String => !keys.isEmpty) hindexes
      optimizations := hoptimizations }

end Planner

end KnowledgeGraph
