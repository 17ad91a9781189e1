import KnowledgeGraph.Engine
import KnowledgeGraph.Proofs.Plan.Outline
import KnowledgeGraph.Proofs.Query.Signature
/-!
# Plans of one signature

A result is kept with the readable plan of the query that asked for it
first, and handed out to any query of that query's signature. This is
right because a planner looks at nothing that a signature leaves out:
queries of one signature are planned or refused alike, and their plans
are alike, step by step and figure by figure (`plan_cases`).

Only the values that steps filter by may differ, and those in the order
of fields alone. Costs are added and selectivities multiplied in the
order of the steps and rounded each time, so it takes that the steps
come in one order (`forall₂_ordered`).
-/

namespace KnowledgeGraph

variable {a b : Query}

/-! ## Plans that are alike -/

/-- Two steps that are the same, the filters taken as maps: in what order
fields stand does not matter, at any depth, and one value that is not a
number is like another. -/
structure PlanStep.Alike (s t : PlanStep) : Prop where
  operation : s.operation = t.operation
  entityType : s.entityType = t.entityType
  filters : Option.Rel (fun as bs => Value.Alike (.map as) (.map bs)) s.filters t.filters
  limit : s.limit = t.limit
  offset : s.offset = t.offset
  cost : s.cost = t.cost
  selectivity : s.selectivity = t.selectivity

/-- Two plans that are the same: their steps are alike, in their order,
and all else is equal. Only the filters in the steps may differ, and only
in the order of fields. -/
structure Plan.Alike (p q : Plan) : Prop where
  steps : List.Forall₂ PlanStep.Alike p.steps q.steps
  cost : p.cost = q.cost
  selectivity : p.selectivity = q.selectivity
  cardinality : p.cardinality = q.cardinality
  indexes : p.indexes = q.indexes
  scansIndex : p.scansIndex = q.scansIndex
  optimizations : p.optimizations = q.optimizations

/-- A step without filters is alike to itself. -/
theorem PlanStep.alike_self {s : PlanStep} (h : s.filters = none) : s.Alike s where
  operation := rfl
  entityType := rfl
  filters := by rw [h]; exact .none
  limit := rfl
  offset := rfl
  cost := rfl
  selectivity := rfl

namespace Planner

theorem forall₂_alike_self {steps : List PlanStep} (h : ∀ s ∈ steps, s.filters = none) :
    List.Forall₂ PlanStep.Alike steps steps :=
  List.forall₂_same.2 fun s hs => PlanStep.alike_self (h s hs)

theorem filters_scanSteps {rows : Binary64} {s : PlanStep} (h : s ∈ scanSteps rows a) :
    s.filters = none := by
  obtain ⟨type, -, rfl⟩ := List.mem_map.1 h
  rfl

theorem filters_pageSteps {s : PlanStep} (h : s ∈ pageSteps a) : s.filters = none := by
  rw [pageSteps] at h
  split at h
  · rw [List.mem_singleton.1 h]
    rfl
  · simp at h

/-- The filters in the steps of a plan are the query's, one by one. -/
theorem exists_filter_of_mem_steps {rows : Binary64} {s : PlanStep} (hs : s ∈ steps rows a) :
    ∀ fs ∈ s.filters, ∃ f ∈ a.filters, fs = [f] := by
  intro fs hfs
  rw [steps, List.mem_append, List.mem_append] at hs
  rcases hs with (hscan | hfilter) | hpage
  · rw [filters_scanSteps hscan] at hfs
    cases hfs
  · obtain ⟨f, hf, rfl⟩ := List.mem_map.1 hfilter
    obtain rfl : [f] = fs := Option.some.inj hfs
    exact ⟨f, List.mem_mergeSort.1 hf, rfl⟩
  · rw [filters_pageSteps hpage] at hfs
    cases hfs

/-- **Filters that are alike are taken in one order**, so that each has
the other's key, and a value alike, at its place. -/
theorem forall₂_ordered {as bs : Fields} (ha : (as.map Prod.fst).Nodup)
    (hb : (bs.map Prod.fst).Nodup) (h : Value.Alike (.map as) (.map bs)) :
    List.Forall₂ Value.FieldAlike (ordered as) (ordered bs) := by
  have hkeys : (ordered as).map Prod.fst = (ordered bs).map Prod.fst := by
    have hprofiles := congrArg (List.map Prod.fst) (profile_ordered_congr ha hb h)
    rwa [List.map_map, List.map_map] at hprofiles
  exact Value.forall₂_fieldAlike hb h (List.mergeSort_perm ..) (List.mergeSort_perm ..) hkeys

/-- The steps of filters alike are alike: what a filter is taken to leave
is decided by its key and by what its value shows of itself. -/
theorem alike_filterStep (rows : Binary64) {f g : String × Value} (h : Value.FieldAlike f g) :
    (filterStep rows f).Alike (filterStep rows g) := by
  obtain ⟨k, v⟩ := f
  obtain ⟨l, w⟩ := g
  obtain ⟨hkey, halike⟩ := h
  obtain rfl : k = l := hkey
  have hshare : selectivity k v = selectivity k w :=
    congrArg (fun p => p.2.share) (profile_congr (f := (k, v)) (g := (k, w)) rfl halike)
  have hfield : Value.Alike (.map [(k, v)]) (.map [(k, w)]) :=
    ⟨fun _ => Iff.rfl, ⟨w, by simp, halike⟩, trivial⟩
  exact ⟨rfl, rfl, .some hfield, rfl, rfl, rfl, hshare⟩

/-- **Queries that ask for the same have plans alike.** -/
theorem alike_planFor (rows : Binary64) (htype : a.entityType = b.entityType)
    (hsize : a.pageSize = b.pageSize) (hskip : a.skip = b.skip)
    (ha : (a.filters.map Prod.fst).Nodup) (hb : (b.filters.map Prod.fst).Nodup)
    (h : Value.Alike (.map a.filters) (.map b.filters)) :
    (planFor rows a).Alike (planFor rows b) := by
  have houtline := sameOutline_planFor rows htype hsize hskip ha hb h
  have hscan : scanSteps rows b = scanSteps rows a := by
    rw [scanSteps, scanSteps, Query.scannedType?, Query.scannedType?, htype]
  have hpage : pageSteps b = pageSteps a := by rw [pageSteps, pageSteps, hsize, hskip]
  have hfilters : List.Forall₂ PlanStep.Alike (filterSteps rows a) (filterSteps rows b) :=
    List.forall₂_map_left_iff.2 (List.forall₂_map_right_iff.2
      ((forall₂_ordered ha hb h).imp fun _ _ => alike_filterStep rows))
  have hsteps : List.Forall₂ PlanStep.Alike (steps rows a) (steps rows b) := by
    rw [steps, steps, hscan, hpage]
    exact List.rel_append
      (List.rel_append (forall₂_alike_self fun _ => filters_scanSteps) hfilters)
      (forall₂_alike_self fun _ => filters_pageSteps)
  exact
    { steps := hsteps
      cost := houtline.cost
      selectivity := houtline.selectivity
      cardinality := houtline.cardinality
      indexes := houtline.indexes
      scansIndex := houtline.scansIndex
      optimizations := houtline.optimizations }

/-- What a planner makes of queries that ask for the same: one fault, or
plans alike that read the same. -/
theorem plan_cases (planner : Planner) (ha : (Value.map a.filters).IsProper)
    (hb : (Value.map b.filters).IsProper) (h : Value.Alike a.constraints b.constraints) :
    (∃ f, planner.plan a = .error f ∧ planner.plan b = .error f) ∨
      ∃ p q, planner.plan a = .ok p ∧ planner.plan b = .ok q ∧ p.Alike q ∧
        p.readable = q.readable := by
  obtain ⟨htype, hfilters, hsize, hskip⟩ := Query.alike_constraints_iff.1 h
  unfold plan
  cases planner.rows with
  | error f => exact Or.inl ⟨f, rfl, rfl⟩
  | ok rows =>
    have hplans : (planFor rows a).Alike (planFor rows b) :=
      alike_planFor rows htype hsize hskip ha.1 hb.1 hfilters
    have hreadable : (planFor rows a).readable = (planFor rows b).readable :=
      (sameOutline_planFor rows htype hsize hskip ha.1 hb.1 hfilters).readable_eq
    exact Or.inr ⟨planFor rows a, planFor rows b, rfl, rfl, hplans, hreadable⟩

end Planner

/-- The plan that is attached to a result is one for all queries that ask
for the same. -/
theorem Engine.planText_congr (planner : Planner) (ha : (Value.map a.filters).IsProper)
    (hb : (Value.map b.filters).IsProper) (h : Value.Alike a.constraints b.constraints) :
    planText (some planner) a = planText (some planner) b := by
  show (planner.plan a).bind _ = (planner.plan b).bind _
  rcases planner.plan_cases ha hb h with ⟨f, hfa, hfb⟩ | ⟨p, q, hp, hq, -, hreadable⟩
  · rw [hfa, hfb]
  · rw [hp, hq]
    exact congrArg (Except.map some) hreadable

end KnowledgeGraph
