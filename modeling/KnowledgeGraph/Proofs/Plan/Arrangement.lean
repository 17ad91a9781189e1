import KnowledgeGraph.Proofs.Plan.Estimates
import KnowledgeGraph.Proofs.Plan.Execution
/-!
# How a plan is arranged

A plan takes the scan first, then the filters, and cuts out the page last.
Its steps, its indexes and its estimates are found one by one; here they
are tied to each other (`Plan.Arranged`): every filter has one step of its
own, the steps of filters stand in the order of their selectivities and
keys, the keys worth an index are those of the first such steps, and the
estimates come of what the steps say.

Filters are put in order by comparing them, and that is an order only as
far as keys tell them apart. A query has no key twice, so the order is
strict (`pairwise_ordered`).
-/

namespace KnowledgeGraph

namespace PlanStep

/-- Whether a step holds entities against a filter. -/
def isFilter (s : PlanStep) : Bool := s.operation = "FilterByProperty"

/-- The keys that a step filters by. -/
def keys (s : PlanStep) : List String := (s.filters.getD []).map Prod.fst

/-- Whether a step leaves so little that its key is worth an index. -/
def isIndexed (s : PlanStep) : Bool := s.selectivity < indexThreshold

end PlanStep

namespace Plan

/-- The steps of a plan that hold entities against filters. -/
def filterSteps (plan : Plan) : List PlanStep := plan.steps.filter PlanStep.isFilter

/-- The product of what the steps of a plan leave, each rounded. -/
def share (plan : Plan) : Binary64 := (plan.steps.map PlanStep.selectivity).foldl (· * ·) .one

end Plan

/-- Whether a double is another one held between two bounds. -/
structure Binary64.IsClamped (least most x clamped : Binary64) : Prop where
  below : x < least → clamped = least
  within : least ≤ x → x ≤ most → clamped = x
  above : most < x → clamped = most

/-- What ties the steps, the indexes and the estimates of a query's plan to
the query and to each other. -/
structure Plan.Arranged (plan : Plan) (q : Query) : Prop where
  /-- around the filters there is a scan if a type is asked for, and a limit
  if a page is -/
  around : ∃ scans limits : List PlanStep,
    plan.steps = scans ++ plan.filterSteps ++ limits ∧
      scans.map (fun s => (s.operation, s.entityType)) =
        q.scannedType?.toList.map (fun type => ("ScanByEntityType", some type)) ∧
      limits.map (fun s => (s.operation, s.limit, s.offset)) =
        if 0 < q.pageSize then [("Limit", some (q.pageSize : ℤ), some (q.skip : ℤ))] else []
  /-- every filter has one step, with the share it is estimated to leave -/
  filters : (plan.filterSteps.map fun s => (s.filters, s.selectivity)).Perm
    (q.filters.map fun f => (some [f], KnowledgeGraph.selectivity f.1 f.2))
  sorted : plan.filterSteps.Pairwise fun s t => s.selectivity ≤ t.selectivity ∧
    (t.selectivity ≤ s.selectivity → ∀ k ∈ s.keys, ∀ l ∈ t.keys, k < l)
  indexes : plan.indexes = (plan.filterSteps.filter PlanStep.isIndexed).flatMap PlanStep.keys
  indexes_nodup : plan.indexes.Nodup
  indexed_first : plan.filterSteps.filter PlanStep.isIndexed <+: plan.filterSteps
  scansIndex : plan.scansIndex = true ↔ plan.indexes ≠ []
  cost : plan.cost = (plan.steps.map PlanStep.cost).foldl (· + ·) .zero
  /-- cutting out a page changes nothing about the share -/
  share : plan.share =
    ((plan.steps.takeWhile (!·.cuts)).map PlanStep.selectivity).foldl (· * ·) .one
  share_bounds : Binary64.zero ≤ plan.share ∧ plan.share ≤ .one
  selectivity : Binary64.IsClamped Planner.leastSelectivity .one plan.share plan.selectivity

/-! ## Beginnings -/

/-- Where what has a property stands in front of what has not, it is a
beginning. -/
theorem filter_prefix_of_pairwise {α : Type} {p : α → Bool} {xs : List α}
    (h : xs.Pairwise fun x y => p y = true → p x = true) : xs.filter p <+: xs := by
  induction h with
  | nil => exact List.prefix_rfl
  | @cons x rest hfirst _ ih =>
    by_cases hx : p x = true
    · rw [List.filter_cons_of_pos hx]
      exact (List.prefix_cons_inj x).2 ih
    · have hrest : rest.filter p = [] :=
        List.filter_eq_nil_iff.2 fun y hy hpy => hx (hfirst y hy hpy)
      rw [List.filter_cons_of_neg hx, hrest]
      exact List.nil_prefix

namespace Planner

open Binary64

variable {p : Planner} {q : Query} {rows : Binary64} {plan : Plan}

/-! ## The order of filters -/

/-- **Filters stand in the order of their selectivities**, and where these
are equal in the order of their keys. -/
theorem pairwise_ordered {filters : Fields} (hkeys : (filters.map Prod.fst).Nodup) :
    (ordered filters).Pairwise fun f g =>
      selectivity f.1 f.2 ≤ selectivity g.1 g.2 ∧
        (selectivity g.1 g.2 ≤ selectivity f.1 f.2 → f.1 < g.1) := by
  have hperm : (ordered filters).Perm filters := List.mergeSort_perm _ _
  have hdistinct : (ordered filters).Pairwise fun f g => f.1 ≠ g.1 :=
    List.pairwise_map.1 ((hperm.map Prod.fst).nodup_iff.2 hkeys)
  have hbefore : (ordered filters).Pairwise fun f g => precedes (profile f) (profile g) = true :=
    List.pairwise_mergeSort (fun f g h => precedes_trans (profile f) (profile g) (profile h))
      (fun f g => precedes_total (profile f) (profile g)) filters
  refine hbefore.imp₂ (fun f g hfg hne => ?_) hdistinct
  rw [precedes_iff, Prod.Lex.le_iff] at hfg
  simp only [profile, ofLex_toLex] at hfg
  unfold selectivity
  rw [share_le_share_iff, share_le_share_iff]
  rcases hfg with hlt | ⟨heq, hle⟩
  · exact ⟨hlt.le, fun hge => absurd hlt hge.not_gt⟩
  · exact ⟨heq.le, fun _ => lt_of_le_of_ne hle hne⟩

/-! ## The steps of filters -/

@[simp] theorem keys_filterStep (f : String × Value) : (filterStep rows f).keys = [f.1] := rfl

/-- The steps of filters are found among the steps of a plan. -/
theorem filterSteps_planFor (rows : Binary64) (q : Query) :
    (planFor rows q).filterSteps = filterSteps rows q := by
  have hscan : (scanSteps rows q).filter PlanStep.isFilter = [] := by
    rw [List.filter_eq_nil_iff]
    intro s hs
    obtain ⟨type, -, rfl⟩ := List.mem_map.1 hs
    simp [PlanStep.isFilter, PlanStep.scan]
  have hfilters : (filterSteps rows q).filter PlanStep.isFilter = filterSteps rows q := by
    rw [List.filter_eq_self]
    intro s hs
    obtain ⟨f, -, rfl⟩ := List.mem_map.1 hs
    rfl
  have hpage : (pageSteps q).filter PlanStep.isFilter = [] := by
    unfold pageSteps
    split <;> simp [PlanStep.isFilter, PlanStep.page]
  show (steps rows q).filter PlanStep.isFilter = filterSteps rows q
  rw [steps, List.filter_append, List.filter_append, hscan, hfilters, hpage, List.nil_append,
    List.append_nil]

/-- The filters worth an index are those that come first. -/
theorem filter_isIndexed_filterSteps (rows : Binary64) (q : Query) :
    (filterSteps rows q).filter PlanStep.isIndexed =
      ((ordered q.filters).filter fun f => decide (selectivity f.1 f.2 < indexThreshold)).map
        (filterStep rows) := by
  rw [filterSteps, List.filter_map]
  rfl

/-- A page is cut out of what is left, and counts as all of it. -/
theorem share_planFor (rows : Binary64) (q : Query) : (planFor rows q).share =
    (((planFor rows q).steps.takeWhile (!·.cuts)).map PlanStep.selectivity).foldl (· * ·) .one := by
  have hsteps : (planFor rows q).steps = scanSteps rows q ++ filterSteps rows q ++ pageSteps q :=
    rfl
  have htaken : (planFor rows q).steps.takeWhile (!·.cuts) =
      scanSteps rows q ++ filterSteps rows q := takeWhile_steps
  rw [Plan.share, htaken, hsteps, List.map_append, List.foldl_append, pageSteps]
  split
  · rw [List.map_singleton, List.foldl_cons, List.foldl_nil, PlanStep.page, Binary64.mul_one]
  · rw [List.map_nil, List.foldl_nil]

/-- What is left of the whole is a part of it. -/
theorem share_bounds_planFor : zero ≤ (planFor rows q).share ∧ (planFor rows q).share ≤ one := by
  have hone := le_refl_of_nonneg zero_le_one
  have hshares := List.nil_sublist ((steps rows q).map PlanStep.selectivity)
  obtain ⟨hnonneg, hle⟩ :=
    foldl_mul_le_of_sublist hshares selectivity_bounds zero_le_one hone hone
  rw [List.foldl_nil] at hle
  exact ⟨hnonneg, hle⟩

/-- What a clamp holds is held between its bounds. -/
theorem isClamped_clamp {x : Binary64} (hx : zero ≤ x) :
    IsClamped leastSelectivity one x (clamp x) where
  below h := by
    have hleast : leastSelectivity < one := by decide +kernel
    rw [clamp, maximum, if_pos h, minimum, if_pos hleast]
  within hle hle' := by
    rw [clamp, maximum, if_neg (not_lt_of_le hle), minimum]
    by_cases hlt : x < one
    · rw [if_pos hlt]
    · rw [if_neg hlt]
      have hge : one ≤ x := le_of_not_lt hx zero_le_one hlt
      exact (eq_one_of_key ((key_eq_of_le_of_le hle' hge).trans key_one)).symm
  above h := by
    have hleast : ¬ x < leastSelectivity := fun hlt => by
      have hone : leastSelectivity ≤ one := by decide +kernel
      exact not_lt_of_le hone (Binary64.lt_of_lt_of_le h (le_of_lt hlt))
    rw [clamp, maximum, if_neg hleast, minimum, if_neg (not_lt_of_le (le_of_lt h))]

/-- **A plan is arranged**, whatever filters there are. -/
theorem arranged_planFor (rows : Binary64) (hkeys : (q.filters.map Prod.fst).Nodup) :
    (planFor rows q).Arranged q where
  around := by
    refine ⟨scanSteps rows q, pageSteps q, ?_, ?_, ?_⟩
    · rw [filterSteps_planFor]
      rfl
    · rw [scanSteps, List.map_map]
      rfl
    · unfold pageSteps
      split <;> rfl
  filters := by
    rw [filterSteps_planFor, filterSteps, List.map_map]
    exact (List.mergeSort_perm q.filters goesBefore).map _
  sorted := by
    rw [filterSteps_planFor, filterSteps, List.pairwise_map]
    refine (pairwise_ordered hkeys).imp fun h => ⟨h.1, fun hle k hk l hl => ?_⟩
    rw [keys_filterStep, List.mem_singleton] at hk hl
    rw [hk, hl]
    exact h.2 hle
  indexes := by
    rw [filterSteps_planFor, filter_isIndexed_filterSteps, List.flatMap_map]
    exact List.map_eq_flatMap
  indexes_nodup := by
    have hperm : (ordered q.filters).Perm q.filters := List.mergeSort_perm _ _
    exact ((List.filter_sublist.map Prod.fst).nodup ((hperm.map Prod.fst).nodup_iff.2 hkeys) :)
  indexed_first := by
    rw [filterSteps_planFor, filter_isIndexed_filterSteps]
    refine (filter_prefix_of_pairwise ((pairwise_ordered hkeys).imp ?_)).map _
    intro f g h hg
    rw [decide_eq_true_eq] at hg ⊢
    exact Binary64.lt_of_le_of_lt h.1 hg
  scansIndex := by
    show (!(indexes q).isEmpty) = true ↔ indexes q ≠ []
    simp
  cost := rfl
  share := share_planFor rows q
  share_bounds := share_bounds_planFor
  selectivity := isClamped_clamp share_bounds_planFor.1

/-- **The plan of a query is arranged**, and ties all that it says to the
query and to each other. -/
theorem arranged_plan (hkeys : (q.filters.map Prod.fst).Nodup) (hplan : p.plan q = .ok plan) :
    plan.Arranged q := by
  unfold Planner.plan at hplan
  cases hrows : p.rows with
  | error fault =>
    rw [hrows] at hplan
    cases hplan
  | ok rows =>
    rw [hrows] at hplan
    obtain rfl : planFor rows q = plan := Except.ok.inj hplan
    exact arranged_planFor rows hkeys

/-- Two filters of one selectivity among four, between a scan and a limit. -/
theorem arranged_plan_tied :
    let q : Query := ⟨some "Person", [("country", .text "NL"), ("sku", .int 7),
      ("name", .text "A*"), ("email", .text "a@b.c")], 10, 20, Query.defaultTimeout, none⟩
    (q.filters.map Prod.fst).Nodup ∧ ∃ plan, default.plan q = .ok plan ∧ plan.Arranged q := by
  intro q
  have hkeys : (q.filters.map Prod.fst).Nodup := by decide
  have hrows : default.rows = .ok (.ofRatio false 1000 1) := by decide +kernel
  have hplan : default.plan q = .ok (planFor (.ofRatio false 1000 1) q) := by
    rw [Planner.plan, hrows]
    rfl
  exact ⟨hkeys, _, hplan, arranged_plan hkeys hplan⟩

end Planner

end KnowledgeGraph
