import KnowledgeGraph.Proofs.Database.Parameters
import KnowledgeGraph.Proofs.Database.Wildcard
/-!
# What a clause tells of its query

A clause tells the type and the filters of its query apart from all
others, and it tells no order in which filters were given
(`ofQuery_alike_iff`). A filter's value is told by what it is bound to: a
pattern by its regular expression, which reads as the pattern, and any
other value by itself. No other value is taken for an expression, since
every expression of a pattern has a star and is a text, and such texts
are patterns.

Where two maps are alike they are so field by field in the order of their
keys (`alike_iff_forall₂`), which is the order of a clause's conditions.
-/

namespace KnowledgeGraph

open Canonical

/-! ## Maps field by field -/

namespace Value

variable {as bs : Fields}

/-- Fields of one key, sorted, stand at the same places. -/
theorem map_fst_sortByKey_of_alike (ha : (as.map Prod.fst).Nodup) (hb : (bs.map Prod.fst).Nodup)
    (h : Alike (.map as) (.map bs)) :
    (sortByKey as).map Prod.fst = (sortByKey bs).map Prod.fst := by
  have hperm : (as.map fun f => (f.1, ())).Perm (bs.map fun f => (f.1, ())) :=
    map_perm_of_alike ha hb h fun _ _ _ _ hkey _ => by rw [hkey]
  have hkeys : ((as.map fun f => (f.1, ())).map Prod.fst).Nodup := by
    rw [List.map_map]
    exact ha
  have hsorted := (sortByKey_eq_sortByKey_iff hkeys).2 hperm
  rw [sortByKey_map (fun _ => ()), sortByKey_map (fun _ => ())] at hsorted
  have hfirst := congrArg (List.map Prod.fst) hsorted
  rwa [List.map_map, List.map_map] at hfirst

/-- **Maps are alike field by field**, once their fields are in the order
of their keys. -/
theorem alike_iff_forall₂ (ha : (as.map Prod.fst).Nodup) (hb : (bs.map Prod.fst).Nodup) :
    Alike (.map as) (.map bs) ↔ List.Forall₂ FieldAlike (sortByKey as) (sortByKey bs) := by
  have hmem : ∀ {fields : Fields} {f : String × Value}, f ∈ sortByKey fields ↔ f ∈ fields :=
    (sortByKey_perm _).mem_iff
  constructor
  · intro h
    exact forall₂_fieldAlike hb h (sortByKey_perm as) (sortByKey_perm bs)
      (map_fst_sortByKey_of_alike ha hb h)
  · intro h
    have hkeys : (sortByKey as).map Prod.fst = (sortByKey bs).map Prod.fst := by
      have hfirst : List.Forall₂ Eq ((sortByKey as).map Prod.fst) ((sortByKey bs).map Prod.fst) :=
        List.forall₂_map_left_iff.2 (List.forall₂_map_right_iff.2 (h.imp fun _ _ hf => hf.1))
      rwa [List.forall₂_eq_eq_eq] at hfirst
    rw [Alike, fieldsAlike_iff]
    constructor
    · intro k
      rw [← ((sortByKey_perm as).map Prod.fst).mem_iff, hkeys,
        ((sortByKey_perm bs).map Prod.fst).mem_iff]
    · intro f hf
      obtain ⟨hlength, hat⟩ := List.forall₂_iff_get.1 h
      obtain ⟨⟨i, hi⟩, rfl⟩ := List.get_of_mem (hmem.2 hf)
      have hg := List.get_mem (sortByKey bs) ⟨i, hlength ▸ hi⟩
      obtain ⟨hkey, halike⟩ := hat i hi (hlength ▸ hi)
      exact ⟨_, hkey ▸ (mem_iff_lookup hb).1 (hmem.1 hg), halike⟩

/-- Values alike are patterns alike. -/
theorem pattern?_of_alike {v w : Value} (h : Alike v w) : v.pattern? = w.pattern? := by
  rcases alike_cases h with rfl | ⟨as, bs, rfl, rfl, -⟩ | ⟨as, bs, rfl, rfl, -⟩
  · rfl
  · rfl
  · rfl

theorem alike_text_iff {s : String} {w : Value} : Alike (text s) w ↔ text s = w := by
  simp [Alike]

theorem eq_text_of_pattern? {v : Value} {pattern : List Char} (h : v.pattern? = some pattern) :
    v = text (String.ofList pattern) ∧ '*' ∈ pattern := by
  cases v with
  | text s =>
    rw [pattern?] at h
    split at h
    · rename_i hstar
      obtain rfl := Option.some.inj h
      exact ⟨by rw [String.ofList_toList], List.contains_iff_mem.1 hstar⟩
    · simp at h
  | _ => simp [pattern?] at h

end Value

/-! ## Bound values -/

namespace RegularExpression

open Clause

theorem star_mem_body {pattern : List Char} (h : '*' ∈ pattern) : '*' ∈ body pattern := by
  induction pattern with
  | nil => simp at h
  | cons c pattern ih =>
    by_cases hc : c = '*'
    · subst hc
      rw [body_star]
      simp
    · have hrest : '*' ∈ pattern := (List.mem_cons.1 h).resolve_left (Ne.symm hc)
      rw [body_char hc]
      exact List.mem_append_right _ (ih hrest)

theorem ofChar_injective : Function.Injective Place.ofChar := by
  intro c d h
  unfold Place.ofChar at h
  split at h <;> split at h
  · rename_i hc hd
    rw [hc, hd]
  · cases h
  · cases h
  · exact Place.literal.inj h

/-- **Patterns have expressions of their own.** -/
theorem regularExpression_injective : Function.Injective regularExpression := by
  intro p q h
  have hplaces := read_regularExpression p
  rw [h, read_regularExpression] at hplaces
  exact (List.map_injective_iff.2 ofChar_injective (Option.some.inj hplaces)).symm

/-- The expression of a pattern would be a pattern itself. -/
theorem pattern?_regularExpression {pattern : List Char} (h : '*' ∈ pattern) :
    (Value.text (String.ofList (regularExpression pattern))).pattern?.isSome = true := by
  have hstar : '*' ∈ (String.ofList (regularExpression pattern)).toList := by
    rw [String.toList_ofList]
    exact List.mem_append_left _ (List.mem_cons_of_mem _ (star_mem_body h))
  rw [Value.pattern?_text hstar]
  rfl

end RegularExpression

namespace Clause

open Value KnowledgeGraph.RegularExpression

theorem boundValue_of_none {v : Value} (h : v.pattern? = none) : boundValue v = v := by
  rw [boundValue, h]

theorem boundValue_of_some {v : Value} {pattern : List Char} (h : v.pattern? = some pattern) :
    boundValue v = .text (String.ofList (regularExpression pattern)) := by
  rw [boundValue, h]

/-- What a pattern is bound to would be a pattern again, and nothing else
would. -/
theorem isSome_pattern?_boundValue (v : Value) :
    (boundValue v).pattern?.isSome = v.pattern?.isSome := by
  cases hv : v.pattern? with
  | none => rw [boundValue_of_none hv, hv]
  | some pattern =>
    rw [boundValue_of_some hv, pattern?_regularExpression (eq_text_of_pattern? hv).2]
    rfl

/-- **What a value is bound to tells the value**: neither two patterns nor
a pattern and any other value are bound alike. -/
theorem alike_boundValue_iff {v w : Value} :
    Alike (boundValue v) (boundValue w) ↔ Alike v w := by
  constructor
  · intro h
    have hflags : v.pattern?.isSome = w.pattern?.isSome := by
      rw [← isSome_pattern?_boundValue v, pattern?_of_alike h, isSome_pattern?_boundValue]
    cases hv : v.pattern? with
    | none =>
      have hw : w.pattern? = none := by
        rw [hv] at hflags
        exact Option.not_isSome_iff_eq_none.1 (Bool.eq_false_iff.1 hflags.symm)
      rwa [boundValue_of_none hv, boundValue_of_none hw] at h
    | some pattern =>
      obtain ⟨other, hw⟩ : ∃ other, w.pattern? = some other :=
        Option.isSome_iff_exists.1 (by rw [← hflags, hv]; rfl)
      rw [boundValue_of_some hv, boundValue_of_some hw, alike_text_iff, Value.text.injEq] at h
      obtain rfl := regularExpression_injective (String.ofList_injective h)
      rw [(eq_text_of_pattern? hv).1, (eq_text_of_pattern? hw).1, alike_text_iff]
  · intro h
    have hpattern := pattern?_of_alike h
    cases hw : w.pattern? with
    | none => rwa [boundValue_of_none (hpattern.trans hw), boundValue_of_none hw]
    | some pattern =>
      rw [boundValue_of_some (hpattern.trans hw), boundValue_of_some hw, alike_text_iff]

/-! ## Parameters of a clause -/

variable {q a b : Query}

theorem nodup_parameters (q : Query) : ((ofQuery q).parameters.map Prod.fst).Nodup :=
  (Statement.isClosed_count q).nodup

theorem mem_parameters_iff {p : String × Value} :
    p ∈ (ofQuery q).parameters ↔
      (∃ type, q.scannedType? = some type ∧ p = ("entity_type", .text type)) ∨
        ∃ i f, (sortByKey q.filters)[i]? = some f ∧ p ∈ (ofFilter i f).parameters := by
  have hparameters : (ofQuery q).parameters = (conditions q).flatMap Clause.parameters := rfl
  rw [hparameters, conditions, List.flatMap_append, List.mem_append]
  refine or_congr ?_ ?_
  · cases q.scannedType? <;> simp [ofType]
  · rw [List.flatMap_map, List.mem_flatMap]
    constructor
    · rintro ⟨⟨f, i⟩, hentry, hp⟩
      exact ⟨i, f, List.mem_zipIdx_iff_getElem?.1 hentry, hp⟩
    · rintro ⟨i, f, hf, hp⟩
      exact ⟨(f, i), List.mem_zipIdx_iff_getElem?.2 hf, hp⟩

theorem entity_type_mem_iff :
    "entity_type" ∈ (ofQuery q).parameters.map Prod.fst ↔ q.scannedType?.isSome = true := by
  have hfilters : "entity_type" ∉ (List.range q.filters.length).flatMap filterNames :=
    not_mem_filterNames rfl (by decide) (by decide) _
  rw [map_fst_parameters, List.mem_append, or_iff_left hfilters]
  cases q.scannedType? <;> simp

theorem key_mem_iff {i : ℕ} :
    parameter "key" i ∈ (ofQuery q).parameters.map Prod.fst ↔ i < q.filters.length := by
  have htype : parameter "key" i ∉ q.scannedType?.toList.map fun _ => "entity_type" := by
    intro h
    obtain ⟨type, -, heq⟩ := List.mem_map.1 h
    exact parameter_ne rfl rfl (by decide) i heq.symm
  rw [map_fst_parameters, List.mem_append, or_iff_right htype, List.mem_flatMap]
  constructor
  · rintro ⟨j, hj, hmem⟩
    simp only [filterNames, List.mem_cons, List.not_mem_nil, or_false] at hmem
    rcases hmem with heq | heq
    · exact parameter_injective _ heq ▸ List.mem_range.1 hj
    · exact absurd heq (parameter_key_ne_value i j)
  · exact fun h => ⟨i, List.mem_range.2 h, List.mem_cons_self⟩

/-! ## Faithfulness -/

/-- Under one name, clauses alike have values alike. -/
theorem alike_of_mem_parameters
    (h : Alike (.map (ofQuery a).parameters) (.map (ofQuery b).parameters)) {name : String}
    {v w : Value} (hv : (name, v) ∈ (ofQuery a).parameters)
    (hw : (name, w) ∈ (ofQuery b).parameters) : Alike v w := by
  rw [Alike, fieldsAlike_iff] at h
  obtain ⟨u, hlookup, halike⟩ := h.2 _ hv
  rw [(mem_iff_lookup (nodup_parameters b)).1 hw] at hlookup
  exact Option.some.inj hlookup ▸ halike

/-- A clause's parameters tell the type. -/
theorem scannedType?_eq_of_alike
    (h : Alike (.map (ofQuery a).parameters) (.map (ofQuery b).parameters)) :
    a.scannedType? = b.scannedType? := by
  have hsome : a.scannedType?.isSome = true ↔ b.scannedType?.isSome = true := by
    rw [← entity_type_mem_iff, ← entity_type_mem_iff]
    exact (by rw [Alike] at h; exact h.1 _)
  cases ha : a.scannedType? with
  | none =>
    rw [ha] at hsome
    exact (Option.not_isSome_iff_eq_none.1 fun hb => by simpa using hsome.2 hb).symm
  | some type =>
    obtain ⟨other, hb⟩ := Option.isSome_iff_exists.1 (hsome.1 (by rw [ha]; rfl))
    have halike : Alike (.text type) (.text other) :=
      alike_of_mem_parameters h (mem_parameters_iff.2 (Or.inl ⟨type, ha, rfl⟩))
        (mem_parameters_iff.2 (Or.inl ⟨other, hb, rfl⟩))
    rw [alike_text_iff, Value.text.injEq] at halike
    rw [hb, halike]

/-- And the filters, one after the other. -/
theorem forall₂_of_alike
    (h : Alike (.map (ofQuery a).parameters) (.map (ofQuery b).parameters)) :
    List.Forall₂ FieldAlike (sortByKey a.filters) (sortByKey b.filters) := by
  have hmany : ∀ i, i < a.filters.length ↔ i < b.filters.length := by
    intro i
    rw [← key_mem_iff, ← key_mem_iff]
    exact (by rw [Alike] at h; exact h.1 _)
  have hlength : (sortByKey a.filters).length = (sortByKey b.filters).length := by
    have ha := hmany a.filters.length
    have hb := hmany b.filters.length
    rw [(sortByKey_perm a.filters).length_eq, (sortByKey_perm b.filters).length_eq]
    omega
  refine List.forall₂_iff_get.2 ⟨hlength, fun i hi hj => ?_⟩
  obtain ⟨hkeyA, hvalueA⟩ := lookup_parameters (List.getElem?_eq_getElem hi)
  obtain ⟨hkeyB, hvalueB⟩ := lookup_parameters (List.getElem?_eq_getElem hj)
  have hkey := alike_of_mem_parameters h hkeyA hkeyB
  rw [alike_text_iff, Value.text.injEq] at hkey
  exact ⟨hkey, alike_boundValue_iff.1 (alike_of_mem_parameters h hvalueA hvalueB)⟩

/-- **Filters alike have parameters alike.** -/
theorem alike_parameters (htype : a.scannedType? = b.scannedType?)
    (hfilters : List.Forall₂ FieldAlike (sortByKey a.filters) (sortByKey b.filters)) :
    Alike (.map (ofQuery a).parameters) (.map (ofQuery b).parameters) := by
  have hlength : a.filters.length = b.filters.length := by
    rw [← (sortByKey_perm a.filters).length_eq, hfilters.length_eq,
      (sortByKey_perm b.filters).length_eq]
  rw [Alike, fieldsAlike_iff]
  constructor
  · intro name
    rw [map_fst_parameters, map_fst_parameters, htype, hlength]
  · intro p hp
    have hpartner : ∀ {name : String} {v w : Value}, (name, w) ∈ (ofQuery b).parameters →
        Alike v w → ∃ u, (ofQuery b).parameters.lookup name = some u ∧ Alike v u :=
      fun hmem halike => ⟨_, (mem_iff_lookup (nodup_parameters b)).1 hmem, halike⟩
    rcases mem_parameters_iff.1 hp with ⟨type, hscanned, rfl⟩ | ⟨i, f, hf, hmem⟩
    · exact hpartner (mem_parameters_iff.2 (Or.inl ⟨type, htype ▸ hscanned, rfl⟩))
        (alike_text_iff.2 rfl)
    · obtain ⟨hi, rfl⟩ := List.getElem?_eq_some_iff.1 hf
      obtain ⟨hsame, hat⟩ := List.forall₂_iff_get.1 hfilters
      obtain ⟨hkey, hvalue⟩ := hat i hi (hsame ▸ hi)
      obtain ⟨hkeyB, hvalueB⟩ := lookup_parameters (List.getElem?_eq_getElem (hsame ▸ hi))
      simp only [ofFilter, List.mem_cons, List.not_mem_nil, or_false] at hmem
      rcases hmem with rfl | rfl
      · exact hpartner hkeyB (alike_text_iff.2 (congrArg _ hkey))
      · exact hpartner hvalueB (alike_boundValue_iff.2 hvalue)

/-- **A clause is faithful to its query.** Two queries have one clause, the
same text with parameters alike, exactly if their filters are alike as
maps and they restrict the same type. -/
theorem ofQuery_alike_iff (ha : (a.filters.map Prod.fst).Nodup)
    (hb : (b.filters.map Prod.fst).Nodup) :
    (ofQuery a).text = (ofQuery b).text ∧
        Alike (.map (ofQuery a).parameters) (.map (ofQuery b).parameters) ↔
      Alike (.map a.filters) (.map b.filters) ∧ a.scannedType? = b.scannedType? := by
  rw [alike_iff_forall₂ ha hb]
  constructor
  · rintro ⟨-, hparameters⟩
    exact ⟨forall₂_of_alike hparameters, scannedType?_eq_of_alike hparameters⟩
  · rintro ⟨hfilters, htype⟩
    have hpatterns : List.Forall₂ Eq
        ((sortByKey a.filters).map fun f => f.2.pattern?.isSome)
        ((sortByKey b.filters).map fun f => f.2.pattern?.isSome) := by
      refine List.forall₂_map_left_iff.2 (List.forall₂_map_right_iff.2 (hfilters.imp ?_))
      intro f g hfg
      rw [pattern?_of_alike hfg.2]
    rw [List.forall₂_eq_eq_eq] at hpatterns
    exact ⟨text_ofQuery_congr (by rw [htype]) hpatterns, alike_parameters htype hfilters⟩

/-- The order of filters and an empty type leave no trace, but a pattern
that looks like the expression of another is told from it. -/
theorem ofQuery_alike_iff_reordered :
    let query (type : Option String) (filters : Fields) : Query :=
      ⟨type, filters, 10, 0, Query.defaultTimeout, none⟩
    let a := query none [("name", .text "B*"), ("age", .int 30)]
    let b := query (some "") [("age", .int 30), ("name", .text "B*")]
    let c := query none [("name", .text "^B.*$"), ("age", .int 30)]
    (a.filters.map Prod.fst).Nodup ∧ (b.filters.map Prod.fst).Nodup ∧
      (c.filters.map Prod.fst).Nodup ∧
      ((ofQuery a).text = (ofQuery b).text ∧
        Alike (.map (ofQuery a).parameters) (.map (ofQuery b).parameters)) ∧
      ¬ ((ofQuery a).text = (ofQuery c).text ∧
        Alike (.map (ofQuery a).parameters) (.map (ofQuery c).parameters)) := by
  intro query a b c
  have ha : (a.filters.map Prod.fst).Nodup := by decide
  have hb : (b.filters.map Prod.fst).Nodup := by decide
  have hc : (c.filters.map Prod.fst).Nodup := by decide
  have hab : Alike (.map a.filters) (.map b.filters) := by
    rw [Alike, fieldsAlike_iff]
    refine ⟨fun k => by simp [a, b, query, or_comm], fun f hf => ?_⟩
    simp only [a, query, List.mem_cons, List.not_mem_nil, or_false] at hf
    rcases hf with rfl | rfl
    · exact ⟨.text "B*", rfl, alike_text_iff.2 rfl⟩
    · exact ⟨.int 30, rfl, by simp [Alike]⟩
  have hac : ¬ Alike (.map a.filters) (.map c.filters) := by
    simp [a, c, query, Alike, FieldsAlike]
  refine ⟨ha, hb, hc, (ofQuery_alike_iff ha hb).2 ⟨hab, rfl⟩, fun h => ?_⟩
  exact hac ((ofQuery_alike_iff ha hc).1 h).1

end Clause

end KnowledgeGraph
