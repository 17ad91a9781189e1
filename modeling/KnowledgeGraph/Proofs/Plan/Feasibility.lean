import KnowledgeGraph.Proofs.Number.Integer
import KnowledgeGraph.Proofs.Plan.Record
import KnowledgeGraph.Proofs.Plan.Signature
import KnowledgeGraph.Proofs.Plan.Estimates
/-!
# When there is a plan

Every query has a plan, unless the baseline is too large an integer to be
rounded to a double. The costs of many filters may add up to an infinity
and their selectivities multiply to zero; neither keeps a plan from being
put together, since costs have no upper bound and the selectivity is held
above zero. So what is put together passes all rules that plans and steps
are held against, and its figures are sound (`plan_int`).
-/

namespace KnowledgeGraph

open Checked

/-- A query that was read, and so passed the rules of queries. -/
def Query.IsRead (q : Query) : Prop := ∃ record, Query.ofRecord record = accept q

/-- The filters of a query that was read pass as properties. -/
theorem Query.IsRead.properties {q : Query} (h : q.IsRead) :
    Reader.properties (.value (.map q.filters)) = accept q.filters := by
  obtain ⟨record, h⟩ := h
  rw [Query.ofRecord] at h
  -- the fields behind the filters, from the last on
  obtain ⟨_, _, htimeout, -, rfl⟩ := seq_eq_accept_iff.1 h
  obtain ⟨_, _, hskip, -, rfl⟩ := seq_eq_accept_iff.1 htimeout
  obtain ⟨_, _, hsize, -, rfl⟩ := seq_eq_accept_iff.1 hskip
  obtain ⟨_, _, hfirst, -, rfl⟩ := seq_eq_accept_iff.1 hsize
  obtain ⟨_, filters, htype, hfilters, rfl⟩ := seq_eq_accept_iff.1 hfirst
  obtain ⟨_, -, rfl⟩ := map_eq_accept_iff.1 htype
  exact Reader.properties_value_of_field hfilters

namespace Planner

open Binary64

variable {p : Planner} {q : Query} {rows : Binary64} {n : ℕ}

/-! ## Baselines -/

/-- There is a planner for every positive integer. -/
theorem exists_open?_int (hn : 1 ≤ n) : ∃ p, open? (.int n) = .ok p ∧ p.baseline = .int n := by
  have hpos : (Value.Number.int n).isNonPositive ≠ true := by
    simp [Value.Number.isNonPositive]
    omega
  exact ⟨_, dif_neg hpos, rfl⟩

/-- What a planner counts on is the double of its baseline. -/
theorem rows_int (h : p.baseline = .int n) :
    p.rows = (ofInt? n).elim (.error .overflow) .ok := by
  rw [rows, h]
  rfl

/-- What a planner counts on for an integer up to `2^53` is just that. -/
theorem round?_rows (h : p.baseline = .int n) (hle : n ≤ 2 ^ 53) (hrows : p.rows = .ok rows)
    (hfinite : rows.isFinite) : rows.round? = some (n : ℤ) := by
  obtain ⟨x, hx, hkey⟩ := exists_ofInt?_natCast_eq hle
  rw [rows_int h, hx] at hrows
  obtain rfl : x = rows := Except.ok.inj hrows
  rw [round?_of_key hfinite hkey, roundDiv_mul_right n unitsPerOne_pos]

/-! ## Rules -/

/-- The filters in the steps of a plan pass as properties. -/
theorem properties_of_mem_steps (hq : q.IsRead) {s : PlanStep} (hs : s ∈ steps rows q) :
    ∀ fs ∈ s.filters, Reader.properties (.value (.map fs)) = accept fs := by
  intro fs hfs
  obtain ⟨f, hf, rfl⟩ := exists_filter_of_mem_steps hs fs hfs
  have hpass := Reader.properties_value_iff.1 hq.properties f hf
  exact Reader.properties_value_iff.2 fun g hg => by rwa [List.mem_singleton.1 hg]

/-! ## Figures -/

/-- The page leaves at least one entity, and no more than there are. -/
theorem cardinality_bounds (hrows : zero ≤ rows) (hfinite : rows.isFinite) {x : Binary64}
    (hx : zero ≤ x) (hle : x ≤ one) : 1 ≤ cardinality rows x ∧
      ∀ n : ℤ, 1 ≤ n → rows.round? = some n → cardinality rows x ≤ n := by
  constructor
  · unfold cardinality
    split
    · exact le_max_left _ _
    · exact le_rfl
  · intro n hn hround
    have hwhole := cardinality_le_cardinality hrows hfinite hx hle (le_refl_of_nonneg zero_le_one)
    have hall : cardinality rows one = n := by
      rw [cardinality, Binary64.mul_one, hround]
      exact max_eq_right hn
    exact hall ▸ hwhole

/-- Costs are never negative, however many steps there are. -/
theorem nonneg_totalCost (hrows : zero ≤ rows) (hfinite : rows.isFinite) :
    zero ≤ totalCost (steps rows q) :=
  foldl_add_le_of_sublist (List.nil_sublist _) (nonneg_cost hrows hfinite) zero_le_zero zero_le_zero

/-- **Planning fails only with a baseline that no double is near.** From
`2^1024 - 2^970` on an integer rounds to no finite double, and there is no
plan. Below it there is one, which all rules let pass; its figures are in
their ranges, and as long as the baseline is a double itself no more
entities are estimated to be left than there are. -/
theorem plan_int (hn : 1 ≤ n) (hq : q.IsRead) :
    ∃ p, open? (.int n) = .ok p ∧ (ofInt? n = none ↔ 2 ^ 1024 - 2 ^ 970 ≤ n) ∧
      (ofInt? n = none → p.plan q = .error .overflow) ∧
      (ofInt? n ≠ none → ∃ plan, p.plan q = .ok plan ∧
        Plan.ofRecord (.ofFields plan.fields) = accept plan ∧
        zero < plan.selectivity ∧ plan.selectivity ≤ one ∧ zero ≤ plan.cost ∧
        1 ≤ plan.cardinality ∧ (n ≤ 2 ^ 53 → plan.cardinality ≤ n)) := by
  obtain ⟨p, hp, hbaseline⟩ := exists_open?_int hn
  have hrows := rows_int hbaseline
  refine ⟨p, hp, ofInt?_natCast_eq_none_iff n, fun hnone => ?_, fun hsome => ?_⟩
  · rw [hnone] at hrows
    exact plan_of_rows_eq_error hrows q
  · obtain ⟨rows, hdouble⟩ := Option.ne_none_iff_exists'.1 hsome
    rw [hdouble] at hrows
    have hrows : p.rows = .ok rows := hrows
    obtain ⟨hnonneg, hfinite⟩ := rows_spec hrows
    obtain ⟨hleast, hmost⟩ := cardinality_bounds hnonneg hfinite
      (Binary64.le_of_lt (clamp_bounds _).1) (clamp_bounds _).2
    refine ⟨planFor rows q, plan_of_rows hrows q,
      Plan.ofRecord_fields fun s hs => properties_of_mem_steps hq hs, (clamp_bounds _).1,
      (clamp_bounds _).2, nonneg_totalCost hnonneg hfinite, hleast, fun hle => ?_⟩
    exact hmost n (by exact_mod_cast hn) (round?_rows hbaseline hle hrows hfinite)

/-- A query that has no plan for the first baseline that is too large, and
one for the last up to which every integer is a double. -/
theorem plan_int_vast :
    let record : Record := [("entity_type", .value (.text "Person")),
      ("property_filters", .value (.map [("email", .text "a@b.c"), ("tags", .list [.int 1])]))]
    ∃ q : Query, Query.ofRecord record = accept q ∧ q.IsRead ∧
      (∃ p, open? (.int overflowFrom) = .ok p ∧ p.plan q = .error .overflow) ∧
      ∃ p plan, open? (.int (2 ^ 53 : ℕ)) = .ok p ∧ p.plan q = .ok plan ∧
        Plan.ofRecord (.ofFields plan.fields) = accept plan ∧ zero < plan.selectivity ∧
        plan.selectivity ≤ one ∧ zero ≤ plan.cost ∧ 1 ≤ plan.cardinality ∧
        plan.cardinality ≤ (2 ^ 53 : ℕ) := by
  intro record
  let q : Query := ⟨some "Person", [("email", .text "a@b.c"), ("tags", .list [.int 1])], 100, 0,
    Query.defaultTimeout, none⟩
  have hrecord : Query.ofRecord record = accept q := rfl
  have hq : q.IsRead := ⟨record, hrecord⟩
  refine ⟨q, hrecord, hq, ?_, ?_⟩
  · have hpos : 1 ≤ overflowFrom := by decide +kernel
    obtain ⟨p, hp, hbeyond, hoverflow, -⟩ := plan_int hpos hq
    exact ⟨p, hp, hoverflow (hbeyond.2 le_rfl)⟩
  · have hpos : 1 ≤ 2 ^ 53 := by decide
    have hwithin : ¬ overflowFrom ≤ 2 ^ 53 := by decide +kernel
    obtain ⟨p, hp, hbeyond, -, hplan⟩ := plan_int hpos hq
    obtain ⟨plan, hplan, hpass, hselectivity, hwhole, hcost, hleast, hmost⟩ :=
      hplan fun hnone => hwithin (hbeyond.1 hnone)
    exact ⟨p, plan, hp, hplan, hpass, hselectivity, hwhole, hcost, hleast, hmost le_rfl⟩

end Planner

end KnowledgeGraph
