import KnowledgeGraph.Graph.Store
import KnowledgeGraph.Plan.Planner
import Mathlib.Order.Basic
/-!
# What a plan does

A store answers a query at one go: it holds every entity against the type
and all filters, and cuts out the page. A plan says the same in steps.
Here each step gets its meaning (`PlanStep.carryOut`), and carried out
one after the other, the steps of a query's plan come to the answer of a
store (`carryOutAll_plan`).

The planner puts filters in an order of its own, which decides nothing,
and leaves out steps that would do nothing.
-/

namespace KnowledgeGraph

namespace PlanStep

/-! ## Carrying out steps -/

/-- What a step leaves of some entities. A step that lacks what its
operation works on says nothing, and neither does an unknown operation. -/
def carryOut (s : PlanStep) (entities : List Entity) : Option (List Entity) :=
  if s.operation = "ScanByEntityType" then
    s.entityType.map fun type => entities.filter fun e => e.type.text = type
  else if s.operation = "FilterByProperty" then
    match s.filters with
    | some [filter] => some (entities.filter fun e => e.properties.meet filter)
    | _ => none
  else if s.operation = "Limit" then
    match s.offset, s.limit with
    | some (.ofNat offset), some (.ofNat limit) => some ((entities.drop offset).take limit)
    | _, _ => none
  else none

/-- What steps leave of some entities, each working on what the one before
it left. -/
def carryOutAll (steps : List PlanStep) (entities : List Entity) : Option (List Entity) :=
  steps.foldlM (fun left s => s.carryOut left) entities

/-- Whether a step cuts out a page. -/
def cuts (s : PlanStep) : Bool := s.operation = "Limit"

@[simp] theorem carryOut_scan (type : String) (cost selectivity : Binary64)
    (entities : List Entity) :
    (scan type cost selectivity).carryOut entities =
      some (entities.filter fun e => e.type.text = type) := rfl

@[simp] theorem carryOut_filter (key : String) (value : Value) (cost selectivity : Binary64)
    (entities : List Entity) :
    (filter key value cost selectivity).carryOut entities =
      some (entities.filter fun e => e.properties.meet (key, value)) := rfl

@[simp] theorem carryOut_page (limit offset : ℕ) (cost : Binary64) (entities : List Entity) :
    (page limit offset cost).carryOut entities = some ((entities.drop offset).take limit) := rfl

theorem carryOutAll_append (steps steps' : List PlanStep) (entities : List Entity) :
    carryOutAll (steps ++ steps') entities =
      (carryOutAll steps entities).bind (carryOutAll steps') :=
  List.foldlM_append

end PlanStep

namespace Planner

open PlanStep

variable {rows : Binary64} {q : Query} {entities : List Entity}

/-! ## The steps of a plan -/

/-- The scan leaves the entities of the type asked for, and all if none
is. -/
theorem carryOutAll_scanSteps (htype : q.entityType ≠ some "") :
    carryOutAll (scanSteps rows q) entities =
      some (entities.filter fun e => q.entityType.all (· = e.type.text)) := by
  unfold scanSteps Query.scannedType?
  cases hasked : q.entityType with
  | none => exact congrArg some (List.filter_eq_self.2 fun _ _ => rfl).symm
  | some type =>
    have hscanned : (some type).filter (!·.isEmpty) = some type :=
      Option.filter_eq_some_iff.2 ⟨rfl, by simpa [hasked] using htype⟩
    rw [hscanned]
    refine congrArg some (List.filter_congr fun e _ => ?_)
    exact decide_eq_decide.2 eq_comm

/-- Steps for some filters leave what meets all of them. -/
theorem carryOutAll_map_filterStep (filters : Fields) :
    carryOutAll (filters.map (filterStep rows)) entities =
      some (entities.filter fun e => filters.all e.properties.meet) := by
  induction filters generalizing entities with
  | nil => exact congrArg some (List.filter_eq_self.2 fun _ _ => rfl).symm
  | cons f rest ih =>
    have hfirst : (filterStep rows f).carryOut entities =
        some (entities.filter fun e => e.properties.meet f) := rfl
    rw [List.map_cons, carryOutAll, List.foldlM_cons, hfirst]
    refine (@ih (entities.filter fun e => e.properties.meet f)).trans ?_
    rw [List.filter_filter]
    simp only [List.all_cons, Bool.and_comm]

/-- **The order of filters decides nothing**, so the planner is free to
choose it. -/
theorem carryOutAll_filterSteps :
    carryOutAll (filterSteps rows q) entities =
      some (entities.filter fun e => q.filters.all e.properties.meet) := by
  have hall : ∀ e : Entity, (ordered q.filters).all e.properties.meet =
      q.filters.all e.properties.meet := fun _ => (List.mergeSort_perm _ _).all_eq
  rw [filterSteps, carryOutAll_map_filterStep]
  simp only [hall]

/-- The last step cuts out the page that the query asks for. Without it all
entities are asked for, and from the first on. -/
theorem carryOutAll_pageSteps (hpage : 0 < q.pageSize ∨ q.skip = 0) :
    carryOutAll (pageSteps q) entities = some (Store.page q entities) := by
  unfold pageSteps Store.page
  by_cases hsize : 0 < q.pageSize
  · simp [carryOutAll, hsize]
  · obtain hskip : q.skip = 0 := hpage.resolve_left hsize
    simp [carryOutAll, hsize, hskip]

/-- **Before the page is cut out**, the entities are left that a store
selects. -/
theorem carryOutAll_selecting (htype : q.entityType ≠ some "") :
    carryOutAll (scanSteps rows q ++ filterSteps rows q) entities =
      some (entities.filter (Store.selects q)) := by
  rw [carryOutAll_append, carryOutAll_scanSteps htype, Option.bind_some, carryOutAll_filterSteps,
    List.filter_filter]
  exact congrArg some (List.filter_congr fun e _ => Bool.and_comm _ _)

/-- Only the last step of a plan cuts out a page. -/
theorem takeWhile_steps :
    (steps rows q).takeWhile (!·.cuts) = scanSteps rows q ++ filterSteps rows q := by
  have hselecting : ∀ s ∈ scanSteps rows q ++ filterSteps rows q, (!s.cuts) = true := by
    intro s hs
    rcases List.mem_append.1 hs with hs | hs
    · obtain ⟨type, -, rfl⟩ := List.mem_map.1 hs
      rfl
    · obtain ⟨f, -, rfl⟩ := List.mem_map.1 hs
      rfl
  rw [steps, List.takeWhile_append_of_pos hselecting, pageSteps]
  split <;> simp [cuts, page]

/-! ## The meaning of a plan -/

/-- **A plan means its query.** Planning fails only with the baseline.
Otherwise the steps, carried out in their order over all entities of a
store, leave exactly the page that the store answers with, and up to the
step that cuts it out as many entities as the store counts. -/
theorem carryOutAll_plan (s : Store) (p : Planner) (htype : q.entityType ≠ some "")
    (hpage : 0 < q.pageSize ∨ q.skip = 0) :
    (∀ fault, p.rows = .error fault → p.plan q = .error fault) ∧
      ∀ rows, p.rows = .ok rows → ∃ (plan : Plan) (result : QueryResult) (found : List Entity),
        p.plan q = .ok plan ∧ s.repository.answer (.query q) = .ok result ∧
          carryOutAll (plan.steps.takeWhile (!·.cuts)) s.entities = some found ∧
          result.totalCount = found.length ∧
          carryOutAll plan.steps s.entities = some result.entities := by
  refine ⟨fun fault hrows => plan_of_rows_eq_error hrows q, fun rows hrows => ?_⟩
  have hselecting : carryOutAll (scanSteps rows q ++ filterSteps rows q) s.entities =
      some (s.entities.filter (Store.selects q)) := carryOutAll_selecting htype
  refine ⟨planFor rows q, s.query q, s.selected q, plan_of_rows hrows q, rfl, ?_, rfl, ?_⟩
  · exact (congrArg (carryOutAll · s.entities) takeWhile_steps).trans hselecting
  · show carryOutAll (steps rows q) s.entities = some (Store.page q (s.selected q))
    rw [steps, carryOutAll_append, hselecting, Option.bind_some, carryOutAll_pageSteps hpage]
    rfl

/-- Of two people found the second is on the page, by a plan that takes the
filters the other way round. -/
theorem carryOutAll_plan_paged :
    let label : TypeLabel := ⟨"Person", by decide⟩
    let person (id city : String) (age : Int) : Entity :=
      ⟨id, label, [("city", .text city), ("age", .int age)], none⟩
    let s := [person "1" "Bonn" 30, person "2" "Ulm" 30, person "3" "Bern" 30,
      person "4" "Bonn" 31].foldl Store.addEntity Store.empty
    let q : Query := ⟨some "Person", [("age", .int 30), ("city", .text "B*")], 1, 1,
      Query.defaultTimeout, none⟩
    let p := Planner.default
    q.entityType ≠ some "" ∧ (0 < q.pageSize ∨ q.skip = 0) ∧
      ∃ (rows : Binary64) (plan : Plan) (found : List Entity),
        p.rows = .ok rows ∧ p.plan q = .ok plan ∧
          carryOutAll (plan.steps.takeWhile (!·.cuts)) s.entities = some found ∧
          found.length = 2 ∧
          carryOutAll plan.steps s.entities = some [person "3" "Bern" 30] := by
  intro label person s q p
  have htype : q.entityType ≠ some "" := by decide
  have hpage : 0 < q.pageSize ∨ q.skip = 0 := Or.inl (by decide)
  obtain ⟨rows, hrows⟩ : ∃ rows, p.rows = .ok rows := by
    have hok : p.rows.isOk = true := by decide +kernel
    cases hrows : p.rows with
    | error fault =>
      rw [hrows] at hok
      cases hok
    | ok rows => exact ⟨rows, rfl⟩
  obtain ⟨plan, result, found, hplan, hanswer, hfound, htotal, hall⟩ :=
    (carryOutAll_plan s p htype hpage).2 rows hrows
  have hresult : s.query q = result := Except.ok.inj hanswer
  have hcount : (s.query q).totalCount = 2 := by decide +kernel
  have hentities : (s.query q).entities = [person "3" "Bern" 30] := by decide +kernel
  rw [hresult] at hcount hentities
  rw [hentities] at hall
  have hlength : found.length = 2 := by omega
  exact ⟨htype, hpage, rows, plan, found, hrows, hplan, hfound, hlength, hall⟩

end Planner

end KnowledgeGraph
