import KnowledgeGraph.Proofs.Plan.Feasibility
import KnowledgeGraph.Proofs.Value.Equality
import KnowledgeGraph.Proofs.Value.Matching
/-!
# One plan for all queries of a signature

A plan made for one query serves every query of its signature
(`Planner.plan_of_signature_eq`): the steps are alike, in their order, the
figures are the same, and there is one text to read.

Such plans are also equal, numbers being compared by worth, as long as no
filter holds what is not a number. That is equal to nothing, itself
included, so a plan whose steps filter by it is equal to no plan
(`Planner.numericEq_planFor_iff`).

A plan could be put together and not be readable, since no integer may be
too long. The integers of a plan are those of the query, which are in its
signature, and an estimate that is within the range of doubles.
-/

namespace KnowledgeGraph

open Binary64

variable {a b : Query}

/-! ## Plans that are equal -/

/-- What a step filters by, as one value. -/
def PlanStep.filterValue (s : PlanStep) : Value := (s.filters.map Value.map).getD .null

/-- Whether two steps are equal, with numbers compared by worth. -/
def PlanStep.numericEq (s t : PlanStep) : Bool :=
  s.operation == t.operation && s.entityType == t.entityType &&
    s.filterValue.numericEq t.filterValue && s.limit == t.limit && s.offset == t.offset &&
    s.cost.numEq t.cost && s.selectivity.numEq t.selectivity

/-- Whether two plans that were made apart are equal, with numbers
compared by worth. -/
def Plan.numericEq (p q : Plan) : Bool :=
  p.steps.isEqv q.steps PlanStep.numericEq && p.cost.numEq q.cost &&
    p.selectivity.numEq q.selectivity && p.cardinality == q.cardinality &&
    p.indexes == q.indexes && p.scansIndex == q.scansIndex && p.optimizations == q.optimizations

theorem Binary64.numEq_self {x : Binary64} (h : zero ≤ x) : x.numEq x = true := by
  rw [numEq_iff]
  cases x with
  | nan => exact absurd h (by decide)
  | infinite s => exact ⟨.infinite s, rfl, rfl⟩
  | finite s u hu => exact ⟨.finite (signed s u / unitsPerOne), rfl, rfl⟩

/-- A value is equal to one alike exactly if nothing in it is not a
number. -/
theorem Value.numericEq_iff_of_alike {v w : Value} (hv : v.IsProper) (hw : w.IsProper)
    (h : Alike v w) : v.numericEq w = true ↔ v.IsNanFree := by
  rw [← numericEq_congr v hv hw h]
  exact numericEq_self_iff hv

theorem PlanStep.Alike.filterValue {s t : PlanStep} (h : s.Alike t) :
    Value.Alike s.filterValue t.filterValue := by
  have hfilters := h.filters
  unfold PlanStep.filterValue
  cases hs : s.filters <;> cases ht : t.filters <;> rw [hs, ht] at hfilters
  · exact rfl
  · cases hfilters
  · cases hfilters
  · obtain ⟨halike⟩ := hfilters
    exact halike

/-- Steps alike are equal exactly if nothing that they filter by is not a
number. -/
theorem PlanStep.numericEq_iff_of_alike {s t : PlanStep} (hs : s.filterValue.IsProper)
    (ht : t.filterValue.IsProper) (hcost : zero ≤ s.cost) (hselectivity : zero ≤ s.selectivity)
    (h : s.Alike t) : s.numericEq t = true ↔ s.filterValue.IsNanFree := by
  rw [← Value.numericEq_iff_of_alike hs ht h.filterValue]
  simp [numericEq, h.operation, h.entityType, h.limit, h.offset, ← h.cost, ← h.selectivity,
    numEq_self hcost, numEq_self hselectivity]

/-- Lists of items that belong together are equal item by item. -/
theorem isEqv_iff_of_forall₂ {α : Type} {related : α → α → Prop} {equal : α → α → Bool}
    {self : α → Prop} {as bs : List α} (h : List.Forall₂ related as bs)
    (hequal : ∀ x ∈ as, ∀ y ∈ bs, related x y → (equal x y = true ↔ self x)) :
    as.isEqv bs equal = true ↔ ∀ x ∈ as, self x := by
  induction h with
  | nil => simp
  | cons hhead _ ih =>
    rw [List.isEqv_cons_cons, Bool.and_eq_true, List.forall_mem_cons,
      hequal _ List.mem_cons_self _ List.mem_cons_self hhead,
      ih fun x hx y hy => hequal x (List.mem_cons_of_mem _ hx) y (List.mem_cons_of_mem _ hy)]

namespace Planner

variable {rows : Binary64}

/-- What the steps of a plan filter by passes as a value if the filters
do. -/
theorem isProper_filterValue (ha : (Value.map a.filters).IsProper) {s : PlanStep}
    (hs : s ∈ steps rows a) : s.filterValue.IsProper := by
  unfold PlanStep.filterValue
  cases hfilters : s.filters with
  | none => exact True.intro
  | some fs =>
    obtain ⟨f, hf, rfl⟩ := exists_filter_of_mem_steps hs fs hfilters
    have hvalue := Value.fieldsProper_iff.1 ha.2 f hf
    simpa [Value.IsProper, Value.FieldsProper] using hvalue

/-- The values in the steps of a plan are those of the filters. -/
theorem forall_isNanFree_filterValue_iff (rows : Binary64) :
    (∀ s ∈ steps rows a, s.filterValue.IsNanFree) ↔ Value.FieldsNanFree a.filters := by
  rw [Value.fieldsNanFree_iff]
  constructor
  · intro h f hf
    have hstep : filterStep rows f ∈ steps rows a := by
      simp only [steps, List.mem_append]
      exact Or.inl (Or.inr (List.mem_map_of_mem (List.mem_mergeSort.2 hf)))
    exact (h _ hstep).1
  · intro h s hs
    unfold PlanStep.filterValue
    cases hfilters : s.filters with
    | none => exact True.intro
    | some fs =>
      obtain ⟨f, hf, rfl⟩ := exists_filter_of_mem_steps hs fs hfilters
      exact ⟨h f hf, True.intro⟩

/-- **Plans for the same are equal** exactly if no filter holds what is
not a number. -/
theorem numericEq_planFor_iff (hrows : zero ≤ rows) (hfinite : rows.isFinite)
    (ha : (Value.map a.filters).IsProper) (hb : (Value.map b.filters).IsProper)
    (h : Value.Alike a.constraints b.constraints) :
    (planFor rows a).numericEq (planFor rows b) = true ↔ Value.FieldsNanFree a.filters := by
  obtain ⟨htype, hfilters, hsize, hskip⟩ := Query.alike_constraints_iff.1 h
  have halike := alike_planFor rows htype hsize hskip ha.1 hb.1 hfilters
  have hcost : zero ≤ (planFor rows a).cost := nonneg_totalCost hrows hfinite
  have hselectivity : zero ≤ (planFor rows a).selectivity :=
    Binary64.le_of_lt (planFor rows a).selectivity_pos
  have hsteps : (planFor rows a).steps.isEqv (planFor rows b).steps PlanStep.numericEq = true ↔
      Value.FieldsNanFree a.filters := by
    rw [← forall_isNanFree_filterValue_iff rows]
    refine isEqv_iff_of_forall₂ halike.steps fun s hs t ht => ?_
    exact PlanStep.numericEq_iff_of_alike (isProper_filterValue ha hs) (isProper_filterValue hb ht)
      (nonneg_cost hrows hfinite _ (List.mem_map_of_mem hs))
      (selectivity_bounds _ (List.mem_map_of_mem hs)).1
  rw [← hsteps]
  simp [Plan.numericEq, ← halike.cost, ← halike.selectivity, ← halike.cardinality,
    ← halike.indexes, ← halike.scansIndex, ← halike.optimizations, numEq_self hcost,
    numEq_self hselectivity]

end Planner

/-! ## Plans that can be read -/

theorem exists_integerLine (label : String) {n : ℤ} (h : (Value.int n).isWritable = true) :
    ∃ line, integerLine label n = .ok line := by
  have hdigits : Canonical.integer n = .ok (Value.int n).sorted.plain :=
    Value.canonical_eq_ok_iff.2 ⟨h, rfl⟩
  exact ⟨_, by rw [integerLine, hdigits]; rfl⟩

theorem exists_mapM_eq_ok {α β : Type} {f : α → Except Fault β} {xs : List α}
    (h : ∀ x ∈ xs, ∃ y, f x = .ok y) : ∃ ys, xs.mapM f = .ok ys := by
  induction xs with
  | nil => exact ⟨[], rfl⟩
  | cons x rest ih =>
    rw [List.forall_mem_cons] at h
    obtain ⟨⟨y, hy⟩, hrest⟩ := h
    obtain ⟨ys, hys⟩ := ih hrest
    exact ⟨y :: ys, by rw [List.mapM_cons, hy, hys]; rfl⟩

/-- An integer within the range of doubles is short enough. -/
theorem isWritable_int_of_le_unitLimit {n : ℤ} (h : n.natAbs ≤ unitLimit) :
    (Value.int n).isWritable = true := by
  have hlimit : unitLimit < Nat.pow 10 IntegerText.mostDigits := by decide +kernel
  exact Value.isWritable_int_iff.2 (h.trans_lt hlimit)

/-- A double is rounded to an integer within the range of doubles. -/
theorem natAbs_round?_le {x : Binary64} {n : ℤ} (h : x.round? = some n) :
    n.natAbs ≤ unitLimit := by
  cases x with
  | finite s u hu =>
    obtain rfl := Option.some.inj h
    have hrounded := roundDiv_le u unitsPerOne
    have hquotient := Nat.div_le_self u unitsPerOne
    have hrange := hu.1
    unfold signed
    split <;> omega
  | _ => cases h

namespace Planner

variable {rows : Binary64}

theorem isWritable_cardinality (rows x : Binary64) :
    (Value.int (cardinality rows x)).isWritable = true := by
  apply isWritable_int_of_le_unitLimit
  have hpos := unitLimit_pos
  unfold cardinality
  split
  · rename_i n hn
    have hrange := natAbs_round?_le hn
    omega
  · omega

/-- Every step of a plan can be read if the place and the size of the page
can. -/
theorem exists_lines_of_mem_steps (ha : a.isWritable = true) {s : PlanStep}
    (hs : s ∈ steps rows a) (number : ℕ) : ∃ lines, s.lines number = .ok lines := by
  rw [Query.isWritable, Bool.and_eq_true, Bool.and_eq_true] at ha
  rw [steps, List.mem_append, List.mem_append] at hs
  rcases hs with (hscan | hfilter) | hpage
  · obtain ⟨type, -, rfl⟩ := List.mem_map.1 hscan
    exact ⟨_, rfl⟩
  · obtain ⟨f, -, rfl⟩ := List.mem_map.1 hfilter
    exact ⟨_, rfl⟩
  · rw [pageSteps] at hpage
    split at hpage
    · rw [List.mem_singleton.1 hpage]
      obtain ⟨limit, hlimit⟩ := exists_integerLine "   Limit: " ha.1.2
      obtain ⟨offset, hoffset⟩ := exists_integerLine "   Offset: " ha.2
      simp only [PlanStep.lines, PlanStep.page, Option.toList_some, List.mapM_cons, List.mapM_nil,
        hlimit, hoffset]
      exact ⟨_, rfl⟩
    · simp at hpage

/-- **The plan of a query with a signature can be read.** -/
theorem exists_readable (rows : Binary64) (ha : a.isWritable = true) :
    ∃ text, (planFor rows a).readable = .ok text := by
  obtain ⟨cardinality, hcardinality⟩ := exists_integerLine "Estimated Cardinality: "
    (isWritable_cardinality rows (clamp (product (steps rows a))))
  obtain ⟨steps, hsteps⟩ : ∃ lines,
      ((planFor rows a).steps.zipIdx 1).mapM (fun step => step.1.lines step.2) = .ok lines :=
    exists_mapM_eq_ok fun step hstep =>
      exists_lines_of_mem_steps ha (List.fst_mem_of_mem_zipIdx hstep) step.2
  obtain ⟨estimates, hestimates⟩ : ∃ lines, (planFor rows a).estimateLines = .ok lines :=
    ⟨_, by rw [Plan.estimateLines, planFor, hcardinality]; rfl⟩
  rw [Plan.readable, hestimates, Plan.stepLines, hsteps]
  exact ⟨_, rfl⟩

/-! ## One plan for a signature -/

/-- **A plan is a function of the signature.** Queries of one signature
are both refused, with one fault, or have plans that are alike and have
one text, whatever baseline they are planned for. The plans are equal,
unless a filter holds what is not a number. So the text that is kept with
a result of one of the queries is the text for the other. -/
theorem plan_of_signature_eq (planner : Planner) {signature : String}
    (ha : (Value.map a.filters).IsProper) (hb : (Value.map b.filters).IsProper)
    (hsa : a.signature = .ok signature) (hsb : b.signature = .ok signature) :
    ((∃ f, planner.plan a = .error f ∧ planner.plan b = .error f) ∨
      ∃ p q text, planner.plan a = .ok p ∧ planner.plan b = .ok q ∧ p.Alike q ∧
        (p.numericEq q = true ↔ Value.FieldsNanFree a.filters) ∧
        p.readable = .ok text ∧ q.readable = .ok text) ∧
      Engine.planText (some planner) a = Engine.planText (some planner) b := by
  have h : Value.Alike a.constraints b.constraints :=
    (Query.signature_eq_ok_iff_alike ha hb hsa).1 hsb
  refine ⟨?_, Engine.planText_congr planner ha hb h⟩
  rcases planner.plan_cases ha hb h with hrefused | ⟨p, q, hp, hq, halike, hreadable⟩
  · exact Or.inl hrefused
  · obtain ⟨rows, hrows, rfl⟩ := exists_rows_of_plan hp
    obtain rfl := Except.ok.inj ((plan_of_rows hrows b).symm.trans hq)
    obtain ⟨hnonneg, hfinite⟩ := rows_spec hrows
    obtain ⟨text, htext⟩ := exists_readable rows (Query.isWritable_of_signature hsa)
    exact Or.inr ⟨_, _, text, hp, hq, halike, numericEq_planFor_iff hnonneg hfinite ha hb h, htext,
      hreadable ▸ htext⟩

/-- Two queries of one signature, with fields in another order at two
depths, and one of them under a cancelled token. -/
theorem plan_of_signature_eq_reordered :
    let a : Query := ⟨some "Person", [("home", .map [("city", .text "Oslo"), ("zip", .int 150)]),
      ("email", .text "a@b.no")], 100, 0, Query.defaultTimeout, none⟩
    let b : Query := ⟨some "Person", [("email", .text "a@b.no"),
      ("home", .map [("zip", .int 150), ("city", .text "Oslo")])], 100, 0,
      ⟨.ofRatio false 2 1, by decide +kernel⟩, some .cancelled⟩
    (Value.map a.filters).IsProper ∧ (Value.map b.filters).IsProper ∧
      (∃ signature, a.signature = .ok signature ∧ b.signature = .ok signature) ∧
      (∃ p q text, default.plan a = .ok p ∧ default.plan b = .ok q ∧ p.Alike q ∧
        p.numericEq q = true ∧ p.readable = .ok text ∧ q.readable = .ok text) ∧
      Engine.planText (some default) a = Engine.planText (some default) b := by
  intro a b
  have ha : (Value.map a.filters).IsProper := by
    simp [a, Value.IsProper, Value.FieldsProper]
  have hb : (Value.map b.filters).IsProper := by
    simp [b, Value.IsProper, Value.FieldsProper]
  have hkeys : ∀ x y : String, ∀ k, k ∈ [x, y] ↔ k ∈ [y, x] := fun x y k => by simp [or_comm]
  have hhome : Value.Alike (.map [("city", .text "Oslo"), ("zip", .int 150)])
      (.map [("zip", .int 150), ("city", .text "Oslo")]) :=
    ⟨hkeys _ _, ⟨_, rfl, rfl⟩, ⟨_, rfl, rfl⟩, trivial⟩
  have hfilters : Value.Alike (.map a.filters) (.map b.filters) :=
    ⟨hkeys _ _, ⟨_, rfl, hhome⟩, ⟨_, rfl, rfl⟩, trivial⟩
  obtain ⟨signature, hsa⟩ : ∃ signature, a.signature = .ok signature :=
    Query.signature_of_isWritable (by decide +kernel)
  have hsb : b.signature = .ok signature :=
    (Query.signature_eq_ok_iff_alike ha hb hsa).2
      (Query.alike_constraints_iff.2 ⟨rfl, hfilters, rfl, rfl⟩)
  have hrows : default.rows = .ok (.ofRatio false 1000 1) := by decide +kernel
  have hnan : Value.FieldsNanFree a.filters := by
    simp [a, Value.FieldsNanFree, Value.IsNanFree]
  obtain ⟨hplans, htext⟩ := plan_of_signature_eq default ha hb hsa hsb
  refine ⟨ha, hb, ⟨signature, hsa, hsb⟩, ?_, htext⟩
  rcases hplans with ⟨f, hf, -⟩ | ⟨p, q, text, hp, hq, halike, hequal, hreads⟩
  · cases (plan_of_rows hrows a).symm.trans hf
  · exact ⟨p, q, text, hp, hq, halike, hequal.2 hnan, hreads⟩

/-- Two queries for a score that is not a number, which differ in their
timeouts alone, have one signature. Their plans are not equal. -/
theorem not_numericEq_of_signature_eq :
    let asking (timeout : { x : Binary64 // Binary64.zero < x }) : Query :=
      ⟨none, [("score", .num .nan)], 100, 0, timeout, none⟩
    let a := asking Query.defaultTimeout
    let b := asking ⟨.ofRatio false 5 1, by decide +kernel⟩
    ∃ signature p q, a.signature = .ok signature ∧ b.signature = .ok signature ∧
      default.plan a = .ok p ∧ default.plan b = .ok q ∧ p.numericEq q = false := by
  intro asking a b
  obtain ⟨signature, hsa⟩ : ∃ signature, a.signature = .ok signature :=
    Query.signature_of_isWritable (by decide +kernel)
  have hconstraints : b.constraints = a.constraints := by
    simp only [Query.constraints, a, b, asking]
  have hsb : b.signature = .ok signature := by
    rw [Query.signature, hconstraints]
    exact hsa
  have hrows : default.rows = .ok (.ofRatio false 1000 1) := by decide +kernel
  refine ⟨signature, planFor (.ofRatio false 1000 1) a, planFor (.ofRatio false 1000 1) b, hsa, hsb,
    plan_of_rows hrows a, plan_of_rows hrows b, ?_⟩
  have hproper : ∀ timeout, (Value.map (asking timeout).filters).IsProper := fun timeout => by
    simp [asking, Value.IsProper, Value.FieldsProper]
  have halike : Value.Alike a.constraints b.constraints :=
    (Query.signature_eq_ok_iff_alike (hproper _) (hproper _) hsa).1 hsb
  obtain ⟨hnonneg, hfinite⟩ := rows_spec hrows
  rw [Bool.eq_false_iff, ne_eq,
    numericEq_planFor_iff hnonneg hfinite (hproper _) (hproper _) halike]
  simp [asking, Value.FieldsNanFree, Value.IsNanFree]

end Planner

end KnowledgeGraph
