import KnowledgeGraph.Proofs.Number.Product
import KnowledgeGraph.Proofs.Plan.Outline
import Mathlib.Data.List.Sort
/-!
# Estimates of narrower queries

A query with one more constraint (`Query.Narrowed`) has the steps of the
one without it, and one more. The new step may come in anywhere, since
filters are taken in the order of their classes, so what the plan adds up
and multiplies is a longer list of which the shorter is a sublist
(`sublist_costs`, `sublist_shares`). Rounded as they are, sums only grow
along it and products only shrink. So a narrower query never costs less,
and never leaves more (`estimates_narrowed`).
-/

namespace KnowledgeGraph

/-! ## Sums and products along a sublist -/

namespace Binary64

variable {xs ys : List Binary64} {x y : Binary64}

/-- **Sums grow with what is added.** -/
theorem foldl_add_le_of_sublist (h : xs.Sublist ys) (hys : ∀ c ∈ ys, zero ≤ c) (hx : zero ≤ x)
    (hle : x ≤ y) : xs.foldl (· + ·) x ≤ ys.foldl (· + ·) y := by
  induction h generalizing x y with
  | slnil => exact hle
  | cons c _ ih =>
    rw [List.forall_mem_cons] at hys
    have hy := Binary64.le_trans hx hle
    exact ih hys.2 hx (Binary64.le_trans hle (le_add hy hys.1))
  | cons_cons c _ ih =>
    rw [List.forall_mem_cons] at hys
    have hc := le_refl_of_nonneg hys.1
    exact ih hys.2 (Binary64.le_trans hx (le_add hx hys.1)) (add_le_add hx hys.1 hle hc)

/-- **Products of shares shrink with what is multiplied.** -/
theorem foldl_mul_le_of_sublist (h : xs.Sublist ys) (hys : ∀ c ∈ ys, zero ≤ c ∧ c ≤ one)
    (hy : zero ≤ y) (hle : y ≤ x) (hx : x ≤ one) :
    zero ≤ ys.foldl (· * ·) y ∧ ys.foldl (· * ·) y ≤ xs.foldl (· * ·) x := by
  induction h generalizing x y with
  | slnil => exact ⟨hy, hle⟩
  | cons c _ ih =>
    rw [List.forall_mem_cons] at hys
    obtain ⟨⟨hc, hc'⟩, hrest⟩ := hys
    have hfinite := isFinite_of_le hy (Binary64.le_trans hle hx) isFinite_one
    have hless := mul_le_self hy hc hfinite hc'
    exact ih hrest (nonneg_mul hy hc hfinite (isFinite_of_le hc hc' isFinite_one))
      (Binary64.le_trans hless hle) hx
  | cons_cons c _ ih =>
    rw [List.forall_mem_cons] at hys
    obtain ⟨⟨hc, hc'⟩, hrest⟩ := hys
    have hfinite := isFinite_of_le hy (Binary64.le_trans hle hx) isFinite_one
    have hfinite' := isFinite_of_le (Binary64.le_trans hy hle) hx isFinite_one
    have hshare := isFinite_of_le hc hc' isFinite_one
    exact ih hrest (nonneg_mul hy hc hfinite hshare)
      (mul_le_mul hy hc hle (le_refl_of_nonneg hc) hfinite' hshare)
      (Binary64.le_trans (mul_le_self (Binary64.le_trans hy hle) hc hfinite' hc') hx)

end Binary64

/-! ## Narrower queries -/

/-- The queries with one more constraint than another: a filter on a new
key, a type where any would do, or pages where there were none. -/
inductive Query.Narrowed (q : Query) : Query → Prop
  | filter {filter : String × Value} {filters : Fields} :
      filter.1 ∉ q.filters.map Prod.fst → filters.Perm (filter :: q.filters) →
      Narrowed q { q with filters := filters }
  | type {type : String} :
      q.scannedType? = none → type ≠ "" → Narrowed q { q with entityType := some type }
  | page {size : ℕ} : q.pageSize = 0 → 0 < size → Narrowed q { q with pageSize := size }

namespace Planner

open Binary64

variable {p : Planner} {q q' : Query} {rows : Binary64}

/-- A narrower query asks for all that the other does. -/
theorem sublist_of_narrowed (rows : Binary64) (h : q.Narrowed q') :
    (scanSteps rows q).Sublist (scanSteps rows q') ∧ q.filters.Subperm q'.filters ∧
      (pageSteps q).Sublist (pageSteps q') := by
  cases h with
  | @filter filter filters _ hperm =>
    exact ⟨List.Sublist.refl _, hperm.symm.subperm_left.1 (List.sublist_cons_self ..).subperm,
      List.Sublist.refl _⟩
  | type hnone _ =>
    refine ⟨?_, List.Subperm.refl _, List.Sublist.refl _⟩
    rw [scanSteps, hnone]
    exact List.nil_sublist _
  | page hzero _ =>
    refine ⟨List.Sublist.refl _, List.Subperm.refl _, ?_⟩
    rw [pageSteps, hzero]
    exact List.nil_sublist _

/-- Each filter costs the same. -/
theorem sublist_costs (rows : Binary64) (h : q.Narrowed q') :
    ((steps rows q).map PlanStep.cost).Sublist ((steps rows q').map PlanStep.cost) := by
  obtain ⟨hscan, hfilters, hpage⟩ := sublist_of_narrowed rows h
  have hcosts : ∀ q, (filterSteps rows q).map PlanStep.cost =
      List.replicate q.filters.length (filterCost * rows) := fun q => by
    rw [filterSteps, List.map_map, List.eq_replicate_iff]
    refine ⟨by simp [ordered], fun c hc => ?_⟩
    obtain ⟨f, -, rfl⟩ := List.mem_map.1 hc
    rfl
  rw [steps, steps]
  simp only [List.map_append]
  rw [hcosts, hcosts]
  exact ((hscan.map _).append (List.replicate_sublist_replicate _ |>.2 hfilters.length_le)).append
    (hpage.map _)

theorem rank_injective : Function.Injective rank := fun c d h => by
  cases c <;> cases d <;> first | rfl | exact absurd h (by decide +kernel)

/-- The classes of filters in the order in which they are taken. -/
def classes (filters : Fields) : List FilterClass :=
  (ordered filters).map fun f => .ofFilter f.1 f.2

theorem pairwise_classes (filters : Fields) :
    (classes filters).Pairwise fun c d => rank c ≤ rank d := by
  have hprofiles : classes filters = ((filters.map profile).mergeSort precedes).map Prod.snd := by
    rw [← map_profile_ordered, List.map_map]
    rfl
  rw [hprofiles, List.pairwise_map]
  refine (List.pairwise_mergeSort precedes_trans precedes_total _).imp fun h => ?_
  rw [precedes_iff, Prod.Lex.le_iff] at h
  exact h.elim (fun hlt => hlt.le) fun heq => heq.1.le

/-- **A new filter comes in between the others**, and moves none of them
past another. -/
theorem classes_sublist {fs gs : Fields} (h : fs.Subperm gs) : (classes fs).Sublist (classes gs) := by
  have hanti : Std.Antisymm fun c d => rank c ≤ rank d :=
    ⟨fun _ _ hcd hdc => rank_injective (le_antisymm hcd hdc)⟩
  obtain ⟨kept, hperm, hsub⟩ : (ordered fs).Subperm (ordered gs) :=
    ((List.mergeSort_perm fs _).subperm.trans h).trans (List.mergeSort_perm gs _).symm.subperm
  exact List.sublist_of_subperm_of_pairwise ⟨_, hperm.map _, hsub.map _⟩ (pairwise_classes fs)
    (pairwise_classes gs)

theorem sublist_shares (rows : Binary64) (h : q.Narrowed q') :
    ((steps rows q).map PlanStep.selectivity).Sublist
      ((steps rows q').map PlanStep.selectivity) := by
  obtain ⟨hscan, hfilters, hpage⟩ := sublist_of_narrowed rows h
  have hshares : ∀ q, (filterSteps rows q).map PlanStep.selectivity =
      (classes q.filters).map FilterClass.share := fun q => by
    rw [filterSteps, classes, List.map_map, List.map_map]
    rfl
  rw [steps, steps]
  simp only [List.map_append]
  rw [hshares, hshares]
  exact ((hscan.map _).append ((classes_sublist hfilters).map _)).append (hpage.map _)

/-! ## Estimates -/

/-- What a plan is made for is a finite number of entities. -/
theorem rows_spec (h : p.rows = .ok rows) : zero ≤ rows ∧ rows.isFinite := by
  obtain ⟨baseline, hpos⟩ := p
  cases baseline with
  | int n =>
    have hn : 0 < n := not_le.1 (of_decide_eq_false hpos)
    refine ofInt?_spec hn ?_
    unfold Planner.rows at h
    dsimp only at h
    unfold Argument.toDouble at h
    dsimp only at h
    generalize ofInt? n = double at h ⊢
    cases double with
    | none => cases h
    | some x => exact congrArg some (Except.ok.inj h)
  | num x =>
    have hx : ¬ x ≤ zero := of_decide_eq_false hpos
    cases x with
    | nan => cases h
    | infinite s => cases h
    | finite s u hu =>
      obtain rfl : finite s u hu = rows := Except.ok.inj h
      exact ⟨(le_total_of_isFinite rfl rfl).resolve_left hx, rfl⟩

theorem nonneg_cost (hrows : zero ≤ rows) (hfinite : rows.isFinite) :
    ∀ c ∈ (steps rows q).map PlanStep.cost, zero ≤ c := by
  have hcost : ∀ c : Binary64, zero ≤ c ∧ c.isFinite → zero ≤ c * rows :=
    fun c hc => nonneg_mul hc.1 hrows hc.2 hfinite
  simp only [List.forall_mem_map, steps, List.forall_mem_append, scanSteps, filterSteps, pageSteps]
  refine ⟨⟨fun _ _ => ?_, fun _ _ => ?_⟩, ?_⟩
  · exact hcost scanCost (by decide +kernel)
  · exact hcost filterCost (by decide +kernel)
  · split
    · simpa [PlanStep.page, pageCost] using zero_le_one
    · simp

theorem share_bounds (c : FilterClass) : zero ≤ c.share ∧ c.share ≤ one := by
  cases c <;> decide +kernel

theorem selectivity_bounds :
    ∀ c ∈ (steps rows q).map PlanStep.selectivity, zero ≤ c ∧ c ≤ one := by
  have hwhole : zero ≤ one ∧ one ≤ one := ⟨zero_le_one, le_refl_of_nonneg zero_le_one⟩
  have htype : zero ≤ typeSelectivity ∧ typeSelectivity ≤ one := by decide +kernel
  simp only [List.forall_mem_map, steps, List.forall_mem_append, scanSteps, filterSteps, pageSteps]
  refine ⟨⟨fun _ _ => ?_, fun f _ => share_bounds (.ofFilter f.1 f.2)⟩, ?_⟩
  · simpa only [PlanStep.scan] using htype
  · split <;> simp [PlanStep.page, hwhole]

theorem clamp_le_clamp {x y : Binary64} (hx : zero ≤ x) (h : x ≤ y) : clamp x ≤ clamp y := by
  have hleast : zero ≤ leastSelectivity := by decide +kernel
  have hmax := maximum_le_maximum hx hleast h
  rw [clamp, clamp]
  refine minimum_le_minimum ?_ zero_le_one hmax
  unfold maximum
  split
  · exact hleast
  · exact hx

theorem cardinality_le_cardinality (hrows : zero ≤ rows) (hfinite : rows.isFinite) {x y : Binary64}
    (hx : zero ≤ x) (h : x ≤ y) (hy : y ≤ one) : cardinality rows x ≤ cardinality rows y := by
  have hfinite' := isFinite_of_le (Binary64.le_trans hx h) hy isFinite_one
  have hless := mul_le_self hrows (Binary64.le_trans hx h) hfinite hy
  have hnonneg := nonneg_mul hrows hx hfinite (isFinite_of_le hx h hfinite')
  have hmul := mul_le_mul hrows hx (le_refl_of_nonneg hrows) h hfinite hfinite'
  obtain ⟨m, n, hm, hn, hmn⟩ := round?_le_round? hnonneg hmul
    (isFinite_of_le (Binary64.le_trans hnonneg hmul) hless hfinite)
  rw [cardinality, cardinality, hm, hn]
  exact max_le_max_left 1 hmn

/-- **A narrower query never costs less and never leaves more.** -/
theorem estimates_narrowed (h : q.Narrowed q') {plan : Plan} (hplan : p.plan q = .ok plan) :
    ∃ plan', p.plan q' = .ok plan' ∧ plan.cost ≤ plan'.cost ∧
      plan'.selectivity ≤ plan.selectivity ∧ plan'.cardinality ≤ plan.cardinality := by
  unfold Planner.plan at hplan ⊢
  cases hrows : p.rows with
  | error fault =>
    rw [hrows] at hplan
    cases hplan
  | ok rows =>
    rw [hrows] at hplan
    obtain rfl : planFor rows q = plan := Except.ok.inj hplan
    obtain ⟨hnonneg, hfinite⟩ := rows_spec hrows
    have hcost : totalCost (steps rows q) ≤ totalCost (steps rows q') :=
      foldl_add_le_of_sublist (sublist_costs rows h) (nonneg_cost hnonneg hfinite) zero_le_zero
        zero_le_zero
    have hone := le_refl_of_nonneg zero_le_one
    obtain ⟨hproduct, hless⟩ := foldl_mul_le_of_sublist (sublist_shares rows h) selectivity_bounds
      zero_le_one hone hone
    have hclamp := clamp_le_clamp hproduct hless
    have hcardinality := cardinality_le_cardinality hnonneg hfinite
      (Binary64.le_of_lt (clamp_bounds _).1) hclamp (clamp_bounds _).2
    exact ⟨planFor rows q', rfl, hcost, hclamp, hcardinality⟩

/-- A filter that is taken before the ones that are there already. -/
theorem estimates_narrowed_email :
    let q : Query := ⟨some "Person", [("country", .text "NL"), ("name", .text "A*")], 0, 0,
      Query.defaultTimeout, none⟩
    let filters : Fields := q.filters ++ [("email", .text "a@b.c")]
    q.Narrowed { q with filters := filters } ∧
      ∃ plan plan', default.plan q = .ok plan ∧
        default.plan { q with filters := filters } = .ok plan' ∧ plan.cost ≤ plan'.cost ∧
        plan'.selectivity ≤ plan.selectivity ∧ plan'.cardinality ≤ plan.cardinality := by
  intro q filters
  have hnew : "email" ∉ q.filters.map Prod.fst := by decide
  have h : q.Narrowed { q with filters := filters } :=
    .filter hnew (List.perm_append_singleton ("email", .text "a@b.c") q.filters)
  have hrows : default.rows.isOk = true := by decide +kernel
  obtain ⟨rows, hrows⟩ : ∃ rows, default.rows = .ok rows := by
    cases hrows' : default.rows with
    | error fault =>
      rw [hrows'] at hrows
      cases hrows
    | ok rows => exact ⟨rows, rfl⟩
  have hplan : default.plan q = .ok (planFor rows q) := by
    rw [Planner.plan, hrows]
    rfl
  obtain ⟨plan', hplan', hestimates⟩ := estimates_narrowed h hplan
  exact ⟨h, planFor rows q, plan', hplan, hplan', hestimates⟩

end Planner

end KnowledgeGraph
