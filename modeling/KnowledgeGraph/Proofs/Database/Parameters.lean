import KnowledgeGraph.Database.Repository
import KnowledgeGraph.Proofs.Number.Decimal
import KnowledgeGraph.Proofs.Value.Alike
/-!
# What is given to a database apart from text

Nothing that a user says is part of a statement's text. A query shows in
the texts of its statements by its shape only (`Query.Shape`): whether it
asks for a type, whether its page has a size, and which filters are
patterns. Everything else is handed over by parameters, and a statement
refers to the parameters that go with it and to no others
(`Statement.IsClosed`).

A text is read for its references from left to right (`references`). Where
it is cut in two in front of a character that no name has, the references
of the whole are those of the parts.
-/

namespace KnowledgeGraph

namespace Statement

/-! ## References -/

/-- Whether a character may be part of a parameter's name. -/
def isNameChar (c : Char) : Bool := c.isAlphanum || c = '_'

/-- The parameters that a text refers to, in order: after each dollar sign
as long a name as stands there. -/
def references : List Char → List String
  | [] => []
  | c :: rest =>
    if c = '$' then String.ofList (rest.takeWhile isNameChar) :: references rest
    else references rest

theorem references_dollar (rest : List Char) :
    references ('$' :: rest) = String.ofList (rest.takeWhile isNameChar) :: references rest := by
  rw [references, if_pos rfl]

theorem references_cons_of_ne {c : Char} (h : c ≠ '$') (rest : List Char) :
    references (c :: rest) = references rest := by
  rw [references, if_neg h]

/-- Text without a dollar sign refers to nothing. -/
theorem references_append_of_not_mem {plain : List Char} (h : '$' ∉ plain) (rest : List Char) :
    references (plain ++ rest) = references rest := by
  induction plain with
  | nil => rfl
  | cons c plain ih =>
    rw [List.mem_cons, not_or] at h
    rw [List.cons_append, references_cons_of_ne (Ne.symm h.1), ih h.2]

theorem references_eq_nil {plain : List Char} (h : '$' ∉ plain) : references plain = [] := by
  have hwhole := references_append_of_not_mem h []
  rwa [List.append_nil] at hwhole

/-- **Text is read in parts** where no name goes on behind the cut. -/
theorem references_append {rest : List Char} (h : rest.takeWhile isNameChar = [])
    (text : List Char) : references (text ++ rest) = references text ++ references rest := by
  induction text with
  | nil => rfl
  | cons c text ih =>
    rw [List.cons_append]
    by_cases hc : c = '$'
    · have hname : (text ++ rest).takeWhile isNameChar = text.takeWhile isNameChar := by
        rw [List.takeWhile_append, h, List.append_nil]
        split
        · rename_i hwhole
          exact ((List.takeWhile_prefix _).eq_of_length hwhole).symm
        · rfl
      subst hc
      rw [references_dollar, references_dollar, hname, ih, List.cons_append]
    · rw [references_cons_of_ne hc, references_cons_of_ne hc, ih]

/-- A dollar sign before a name refers to that name. -/
theorem references_name {name : List Char} (h : ∀ c ∈ name, isNameChar c = true) :
    references ('$' :: name) = [String.ofList name] := by
  have hdollar : '$' ∉ name := fun hmem => absurd (h '$' hmem) (by decide)
  have hname : name.takeWhile isNameChar = name := by
    have hwhole : (name ++ []).takeWhile isNameChar = name ++ [].takeWhile isNameChar :=
      List.takeWhile_append_of_pos h
    rwa [List.append_nil, List.takeWhile_nil, List.append_nil] at hwhole
  rw [references_dollar, references_eq_nil hdollar, hname]

/-- A statement refers to the parameters supplied with it, to all of them
and to no others, and each is supplied once. -/
structure IsClosed (s : Statement) : Prop where
  nodup : (s.parameters.map Prod.fst).Nodup
  mem_references_iff :
    ∀ name, name ∈ references s.text.toList ↔ name ∈ s.parameters.map Prod.fst

end Statement

namespace Clause

open Statement

variable {q a b : Query}

/-! ## Names of parameters -/

/-- The two parameters of the filter at an index. -/
def filterNames (index : ℕ) : List String := [parameter "key" index, parameter "value" index]

theorem toList_parameter (role : String) (index : ℕ) :
    (parameter role index).toList = role.toList ++ digitsOf index := by
  have hparameter : parameter role index = role ++ index.repr := rfl
  rw [hparameter, String.toList_append, Nat.toList_repr, digitsOf]

/-- A filter's parameters tell its index. -/
theorem parameter_injective (role : String) : Function.Injective (parameter role) := by
  intro i j heq
  have hlists := congrArg String.toList heq
  rw [toList_parameter, toList_parameter] at hlists
  exact digitsOf_injective (List.append_cancel_left hlists)

/-- Names that begin differently are different. -/
theorem parameter_ne {role name : String} {c d : Char} (hrole : role.toList.head? = some c)
    (hname : name.toList.head? = some d) (hne : c ≠ d) (index : ℕ) :
    parameter role index ≠ name := by
  intro heq
  have hheads := congrArg (·.toList.head?) heq
  simp only [toList_parameter, List.head?_append, hrole, hname] at hheads
  exact hne (Option.some.inj hheads)

theorem parameter_key_ne_value (i j : ℕ) : parameter "key" i ≠ parameter "value" j := by
  have hvalue : (parameter "value" j).toList.head? = some 'v' := by
    rw [toList_parameter]
    rfl
  exact parameter_ne rfl hvalue (by decide) i

theorem references_parameter (role : String) (h : role.toList.all isNameChar = true)
    (index : ℕ) : references ('$' :: (parameter role index).toList) = [parameter role index] := by
  have hname : ∀ c ∈ (parameter role index).toList, isNameChar c = true := by
    intro c hc
    rw [toList_parameter, List.mem_append] at hc
    rcases hc with hc | hc
    · exact List.all_eq_true.1 h c hc
    · rw [isNameChar, Char.isAlphanum, isDigit_of_mem_digitsOf hc, Bool.or_true, Bool.true_or]
  rw [references_name hname, String.ofList_toList]

/-- **Every key and every value has a name of its own.** -/
theorem nodup_filterNames (n : ℕ) : ((List.range n).flatMap filterNames).Nodup := by
  rw [List.nodup_flatMap]
  constructor
  · intro i _
    simpa [filterNames] using parameter_key_ne_value i i
  · refine List.pairwise_lt_range.imp fun {i j} hlt => ?_
    intro name hi hj
    simp only [filterNames, List.mem_cons, List.not_mem_nil, or_false] at hi hj
    rcases hi with rfl | rfl
    · rcases hj with hj | hj
      · exact absurd (parameter_injective _ hj) (Nat.ne_of_lt hlt)
      · exact parameter_key_ne_value i j hj
    · rcases hj with hj | hj
      · exact parameter_key_ne_value j i hj.symm
      · exact absurd (parameter_injective _ hj) (Nat.ne_of_lt hlt)

/-- And no other parameter has one of them. -/
theorem not_mem_filterNames {name : String} {d : Char} (hname : name.toList.head? = some d)
    (hkey : 'k' ≠ d) (hvalue : 'v' ≠ d) (n : ℕ) : name ∉ (List.range n).flatMap filterNames := by
  intro hmem
  obtain ⟨i, -, hi⟩ := List.mem_flatMap.1 hmem
  simp only [filterNames, List.mem_cons, List.not_mem_nil, or_false] at hi
  rcases hi with hi | hi
  · exact parameter_ne rfl hname hkey i hi.symm
  · exact parameter_ne rfl hname hvalue i hi.symm

/-! ## The text of a clause -/

/-- Conditions as the text of a clause. -/
def textOf (texts : List String) : String :=
  if texts.isEmpty then "" else "WHERE " ++ " AND ".intercalate texts

theorem text_ofQuery (q : Query) : (ofQuery q).text = textOf ((conditions q).map text) := by
  rw [ofQuery, textOf, List.isEmpty_map]

theorem references_intercalate (texts : List String) :
    references (" AND ".intercalate texts).toList = texts.flatMap fun t => references t.toList := by
  induction texts with
  | nil => rfl
  | cons t rest ih =>
    cases rest with
    | nil => rw [String.intercalate_singleton, List.flatMap_singleton]
    | cons u rest =>
      rw [String.intercalate_cons_cons, String.toList_append, String.toList_append,
        List.append_assoc, references_append rfl, references_append_of_not_mem (by decide), ih,
        List.flatMap_cons (x := t)]

theorem references_textOf (texts : List String) :
    references (textOf texts).toList = texts.flatMap fun t => references t.toList := by
  cases texts with
  | nil => rfl
  | cons t rest =>
    have htext : textOf (t :: rest) = "WHERE " ++ " AND ".intercalate (t :: rest) := rfl
    rw [htext, String.toList_append, references_append_of_not_mem (by decide),
      references_intercalate]

theorem references_conditionText (index : ℕ) (value : Value) :
    references (conditionText index value).toList = filterNames index := by
  let relation := if value.pattern?.isSome then "=~" else "="
  let between := "] ".toList ++ relation.toList ++ " ".toList
  have htext : (conditionText index value).toList =
      "n[".toList ++ ('$' :: (parameter "key" index).toList ++
        (between ++ '$' :: (parameter "value" index).toList)) := by
    show ("n[$" ++ parameter "key" index ++ "] " ++ relation ++ " $" ++
      parameter "value" index).toList = _
    simp [String.toList_append, between]
  have hplain : '$' ∉ between := by
    cases hpattern : value.pattern?.isSome <;> simp [between, relation, hpattern]
  rw [htext, references_append_of_not_mem (by decide), references_append rfl,
    references_append_of_not_mem hplain, references_parameter "key" rfl,
    references_parameter "value" rfl]
  rfl

/-- A condition refers to the parameters it brings along. -/
theorem references_of_mem_conditions {c : Clause} (h : c ∈ conditions q) :
    references c.text.toList = c.parameters.map Prod.fst := by
  rcases List.mem_append.1 h with h | h
  · obtain ⟨type, -, rfl⟩ := List.mem_map.1 h
    have htype : references "$entity_type IN labels(n)".toList = ["entity_type"] := by decide
    exact htype
  · obtain ⟨⟨f, index⟩, -, rfl⟩ := List.mem_map.1 h
    exact references_conditionText index f.2

/-- **A clause refers to its parameters**, to one after the other. -/
theorem references_ofQuery (q : Query) :
    references (ofQuery q).text.toList = (ofQuery q).parameters.map Prod.fst := by
  have hparameters : (ofQuery q).parameters = (conditions q).flatMap Clause.parameters := rfl
  rw [text_ofQuery, references_textOf, hparameters, List.flatMap_map, List.map_flatMap]
  exact List.flatMap_congr fun c hc => references_of_mem_conditions hc

/-- The names of a clause's parameters: that of the type, if one is asked
for, and two for each filter. -/
theorem map_fst_parameters (q : Query) :
    (ofQuery q).parameters.map Prod.fst =
      (q.scannedType?.toList.map fun _ => "entity_type") ++
        (List.range q.filters.length).flatMap filterNames := by
  have hindices : (Canonical.sortByKey q.filters).zipIdx.map Prod.snd =
      List.range q.filters.length := by
    rw [List.zipIdx_map_snd, (Canonical.sortByKey_perm q.filters).length_eq, List.range_eq_range']
  have hparameters : (ofQuery q).parameters = (conditions q).flatMap Clause.parameters := rfl
  rw [hparameters, List.map_flatMap, conditions, List.flatMap_append, ← hindices, List.flatMap_map,
    List.flatMap_map, List.flatMap_map]
  congr 1
  cases q.scannedType? <;> rfl

/-- What a filter looks for is bound to the names of its index. -/
theorem lookup_parameters {i : ℕ} {f : String × Value}
    (h : (Canonical.sortByKey q.filters)[i]? = some f) :
    (parameter "key" i, .text f.1) ∈ (ofQuery q).parameters ∧
      (parameter "value" i, boundValue f.2) ∈ (ofQuery q).parameters := by
  have hmem : ofFilter i f ∈ conditions q := by
    refine List.mem_append_right _ (List.mem_map.2 ⟨(f, i), ?_, rfl⟩)
    exact List.mem_zipIdx_iff_getElem?.2 h
  constructor
  · exact List.mem_flatMap.2 ⟨_, hmem, by simp [ofFilter]⟩
  · exact List.mem_flatMap.2 ⟨_, hmem, by simp [ofFilter]⟩

end Clause

/-! ## The shape of a query -/

/-- What the texts of a query's statements show of it. -/
structure Query.Shape where
  /-- whether a type is asked for -/
  isTyped : Bool
  /-- whether the page has a size -/
  isPaged : Bool
  /-- which filters are patterns, in the order of their keys -/
  patterns : List Bool
deriving DecidableEq

def Query.shape (q : Query) : Query.Shape :=
  ⟨q.scannedType?.isSome, 0 < q.pageSize,
    (Canonical.sortByKey q.filters).map fun f => f.2.pattern?.isSome⟩

namespace Clause

variable {a b : Query}

/-- Of a value its condition shows only whether it is a pattern. -/
theorem conditionText_congr {v w : Value} (h : v.pattern?.isSome = w.pattern?.isSome)
    (index : ℕ) : conditionText index v = conditionText index w := by
  rw [conditionText, conditionText, h]

theorem text_ofFilter_zipIdx_congr {fields others : Fields}
    (h : fields.map (fun f => f.2.pattern?.isSome) = others.map fun f => f.2.pattern?.isSome) :
    (fields.zipIdx.map fun entry => ofFilter entry.2 entry.1).map text =
      (others.zipIdx.map fun entry => ofFilter entry.2 entry.1).map text := by
  have hlength : fields.length = others.length := by simpa using congrArg List.length h
  refine List.ext_getElem (by simpa using hlength) fun i hi hj => ?_
  rw [List.length_map, List.length_map, List.length_zipIdx] at hi hj
  have hflag := List.getElem_of_eq h (i := i) (by simpa using hi)
  rw [List.getElem_map, List.getElem_map] at hflag
  simp only [List.getElem_map, List.getElem_zipIdx]
  exact conditionText_congr hflag _

/-- **A clause shows whether there is a type, and which filters are
patterns**, and nothing else of its query. -/
theorem text_ofQuery_congr (htyped : a.scannedType?.isSome = b.scannedType?.isSome)
    (hpatterns : (Canonical.sortByKey a.filters).map (fun f => f.2.pattern?.isSome) =
      (Canonical.sortByKey b.filters).map fun f => f.2.pattern?.isSome) :
    (ofQuery a).text = (ofQuery b).text := by
  have htype : (a.scannedType?.toList.map ofType).map Clause.text =
      (b.scannedType?.toList.map ofType).map Clause.text := by
    cases ha : a.scannedType? <;> cases hb : b.scannedType? <;> simp_all [ofType]
  rw [text_ofQuery, text_ofQuery, conditions, conditions, List.map_append, List.map_append, htype,
    text_ofFilter_zipIdx_congr hpatterns]

end Clause

namespace Statement

open Clause

variable {q a b : Query}

/-! ## Statements of a query -/

theorem references_count (q : Query) :
    references (count q).text.toList = (count q).parameters.map Prod.fst := by
  have htext : (count q).text =
      "MATCH (n:Entity) " ++ (ofQuery q).text ++ " RETURN count(n) AS total" := rfl
  have hparameters : (count q).parameters = (ofQuery q).parameters := rfl
  have hend : references " RETURN count(n) AS total".toList = [] := references_eq_nil (by simp)
  rw [htext, String.toList_append, String.toList_append, List.append_assoc,
    references_append_of_not_mem (by simp), references_append (by simp [isNameChar]), hend,
    List.append_nil, references_ofQuery, hparameters]

theorem references_limit (q : Query) :
    references (limit q).text.toList = (limit q).parameters.map Prod.fst ∧
      (limit q).text.toList.takeWhile isNameChar = [] := by
  unfold limit
  split
  · have hlimit : references " LIMIT $limit".toList = ["limit"] := by decide
    exact ⟨hlimit, by simp [isNameChar]⟩
  · exact ⟨rfl, rfl⟩

theorem references_page (q : Query) :
    references (page q).text.toList = (page q).parameters.map Prod.fst := by
  let order := " RETURN properties(n) AS props, labels(n) AS labels ORDER BY n.id SKIP $skip"
  have htext : (page q).text =
      "MATCH (n:Entity) " ++ (ofQuery q).text ++ order ++ (limit q).text := rfl
  have hparameters : (page q).parameters =
      (ofQuery q).parameters ++ ("skip", .int q.skip) :: (limit q).parameters := rfl
  have horder : references order.toList = ["skip"] := by simp [order, references, isNameChar]
  obtain ⟨hlimit, hcut⟩ := references_limit q
  rw [htext, String.toList_append, String.toList_append, String.toList_append, List.append_assoc,
    List.append_assoc, references_append_of_not_mem (by simp),
    references_append (by simp [order, isNameChar]), references_append hcut, horder,
    references_ofQuery, hlimit, hparameters, List.map_append, List.map_cons]
  rfl

/-- Setting lines in changes nothing about what they refer to. -/
theorem references_indented (lines : List String) :
    references (indented lines).toList = lines.flatMap fun line => references line.toList := by
  rw [indented, String.toList_append, references_append_of_not_mem (by simp)]
  induction lines with
  | nil => rfl
  | cons line lines ih =>
    have hline : ("    " ++ line ++ "\n").toList = "    ".toList ++ (line.toList ++ ['\n']) := by
      simp only [String.toList_append, List.append_assoc]
      rfl
    rw [List.map_cons, String.join_cons, String.toList_append, hline, List.append_assoc,
      references_append_of_not_mem (by simp), List.append_assoc,
      references_append (by simp [isNameChar]), references_append_of_not_mem (by simp), ih,
      List.flatMap_cons]

/-- Named one after the other, parameters are named all. -/
theorem isClosed_of_references {s : Statement}
    (h : references s.text.toList = s.parameters.map Prod.fst)
    (hnodup : (s.parameters.map Prod.fst).Nodup) : s.IsClosed :=
  ⟨hnodup, fun name => by rw [h]⟩

/-- The names in a clause, with others that begin differently behind
them. -/
theorem nodup_names (q : Query) {others : List String} (hothers : others.Nodup)
    (h : ∀ name ∈ others, name.toList.head? = some 's' ∨ name.toList.head? = some 'l') :
    ((ofQuery q).parameters.map Prod.fst ++ others).Nodup := by
  have htype : ∀ name ∈ q.scannedType?.toList.map fun _ => "entity_type", name = "entity_type" :=
    fun name hname => (List.mem_map.1 hname).choose_spec.2.symm
  have htypes : (q.scannedType?.toList.map fun _ => "entity_type").Nodup := by
    cases q.scannedType? <;> simp
  rw [map_fst_parameters, List.append_assoc, List.nodup_append, List.nodup_append]
  refine ⟨htypes, ⟨nodup_filterNames _, hothers, ?_⟩, ?_⟩
  · intro name hname other hother heq
    subst heq
    rcases h name hother with hhead | hhead
    · exact not_mem_filterNames hhead (by decide) (by decide) _ hname
    · exact not_mem_filterNames hhead (by decide) (by decide) _ hname
  · intro name hname other hother heq
    subst heq
    obtain rfl := htype name hname
    rcases List.mem_append.1 hother with hother | hother
    · exact not_mem_filterNames rfl (by decide) (by decide) _ hother
    · rcases h _ hother with hhead | hhead <;> simp at hhead

theorem isClosed_count (q : Query) : (count q).IsClosed := by
  refine isClosed_of_references (references_count q) ?_
  have hnodup := nodup_names q List.nodup_nil (by simp)
  rwa [List.append_nil] at hnodup

theorem isClosed_page (q : Query) : (page q).IsClosed := by
  refine isClosed_of_references (references_page q) ?_
  have hnames : (page q).parameters.map Prod.fst = (ofQuery q).parameters.map Prod.fst ++
      "skip" :: (limit q).parameters.map Prod.fst :=
    List.map_append
  rw [hnames]
  unfold limit
  split
  · exact nodup_names q (by simp) (by simp)
  · exact nodup_names q (by simp) (by simp)

theorem isClosed_among (ids : List String) : (among ids).IsClosed := by
  have hreferences : references (among ids).text.toList = ["ids", "ids"] := by
    rw [among, references_indented]
    simp [amongLines, references, isNameChar]
  refine ⟨List.nodup_singleton _, fun name => ?_⟩
  rw [hreferences]
  simp [among]

/-- Every key and every value that a query looks for is bound, each to a
name of its own. -/
structure Binds (s : Statement) (q : Query) : Prop where
  key : ∀ i f, (Canonical.sortByKey q.filters)[i]? = some f →
    (parameter "key" i, .text f.1) ∈ s.parameters
  value : ∀ i f, (Canonical.sortByKey q.filters)[i]? = some f →
    (parameter "value" i, boundValue f.2) ∈ s.parameters
  distinct : ((List.range q.filters.length).flatMap fun i =>
    [parameter "key" i, parameter "value" i]).Nodup

theorem binds_count (q : Query) : (count q).Binds q where
  key _ _ h := (lookup_parameters h).1
  value _ _ h := (lookup_parameters h).2
  distinct := nodup_filterNames _

theorem binds_page (q : Query) : (page q).Binds q where
  key _ _ h := List.mem_append_left _ (lookup_parameters h).1
  value _ _ h := List.mem_append_left _ (lookup_parameters h).2
  distinct := nodup_filterNames _

/-- **The texts of both statements show the shape of the query and nothing
else.** -/
theorem text_congr (h : a.shape = b.shape) :
    (count a).text = (count b).text ∧ (page a).text = (page b).text := by
  obtain ⟨htyped, hpaged, hpatterns⟩ := (Query.Shape.mk.injEq ..).mp h
  rw [decide_eq_decide] at hpaged
  have hclause : (ofQuery a).text = (ofQuery b).text := text_ofQuery_congr htyped hpatterns
  have hlimit : (limit a).text = (limit b).text := by
    unfold limit
    by_cases hsize : 0 < a.pageSize
    · rw [if_pos hsize, if_pos (hpaged.1 hsize)]
    · rw [if_neg hsize, if_neg fun hb => hsize (hpaged.2 hb)]
  constructor
  · show "MATCH (n:Entity) " ++ (ofQuery a).text ++ _ = "MATCH (n:Entity) " ++ (ofQuery b).text ++ _
    rw [hclause]
  · show "MATCH (n:Entity) " ++ (ofQuery a).text ++ _ ++ (limit a).text =
      "MATCH (n:Entity) " ++ (ofQuery b).text ++ _ ++ (limit b).text
    rw [hclause, hlimit]

end Statement

/-! ## What a query sends -/

namespace Database

open Dialogue Statement

variable {answer : ℕ → (s : Statement) → Except Fault Rows} {token : Option Token} {α : Type}

/-- Whether a run sends some statements in their order, and after them at
most one about the relationships among entities. It may break off with a
fault; with a result it has sent them all. -/
structure Sends (statements : List Statement) (x : Run Statement α) : Prop where
  asked : ∃ ids, x.asked <+: statements ++ [.among ids]
  complete : ∀ a, x.outcome = .ok a → statements <+: x.asked

namespace Sends

variable {statements : List Statement} {s : Statement} {begun : ℕ}

theorem broken (fault : Fault) : Sends statements (⟨[], .error fault⟩ : Run Statement α) where
  asked := ⟨[], List.nil_prefix⟩
  complete _ h := nomatch h

/-- A poll sends nothing. -/
theorem poll {next : DatabaseDialogue α} (h : Sends statements (next.runFrom answer token begun)) :
    Sends statements ((Dialogue.poll next).runFrom answer token begun) := by
  rw [runFrom]
  cases checkToken token begun with
  | error fault => exact broken fault
  | ok u => exact h

/-- Nor does what is read off an answer. -/
theorem ofExcept_bind {β : Type} {x : Except Fault β} {k : β → DatabaseDialogue α}
    (h : ∀ b, Sends statements ((k b).runFrom answer token begun)) :
    Sends statements (((ofExcept x).bind k).runFrom answer token begun) := by
  cases x with
  | error fault => exact broken fault
  | ok b => exact h b

/-- A question sends its statement, and goes on if there is an answer. -/
theorem ask {next : Rows → DatabaseDialogue α}
    (h : ∀ rows, Sends statements ((next rows).runFrom answer token (begun + 1))) :
    Sends (s :: statements) ((Dialogue.ask s next).runFrom answer token begun) := by
  rw [runFrom]
  cases (token.elim (.ok ()) (·.strike (begun + 1))).bind fun () => answer (begun + 1) s with
  | error fault =>
    exact ⟨⟨[], List.cons_prefix_cons.2 ⟨rfl, List.nil_prefix⟩⟩, fun _ hok => nomatch hok⟩
  | ok rows =>
    obtain ⟨⟨ids, hasked⟩, hcomplete⟩ := h rows
    exact ⟨⟨ids, List.cons_prefix_cons.2 ⟨rfl, hasked⟩⟩,
      fun a ha => List.cons_prefix_cons.2 ⟨rfl, hcomplete a ha⟩⟩

end Sends

/-- Nothing is sent to read something off an answer. -/
theorem asked_read {β : Type} (x : Except Fault β) (k : β → Except Fault α) (begun : ℕ) :
    (((ofExcept x).bind fun b => Dialogue.ofExcept (k b)).runFrom answer token begun).asked =
      [] := by
  cases x with
  | error fault => rfl
  | ok b =>
    show ((Dialogue.ofExcept (k b)).runFrom answer token begun).asked = []
    cases k b <;> rfl

/-- The relationships among some entities are asked for once at most. -/
theorem sends_among (entities : List Entity) (begun : ℕ)
    (k : List Relationship → Except Fault α) :
    Sends [] (((among entities).bind fun found => Dialogue.ofExcept (k found)).runFrom answer
      token begun) := by
  let s := Statement.among (entities.map Entity.id)
  refine ⟨⟨entities.map Entity.id, ?_⟩, fun _ _ => List.nil_prefix⟩
  show _ <+: [s]
  unfold among
  split
  · have hasked : (((.done [] : DatabaseDialogue (List Relationship)).bind fun found =>
        Dialogue.ofExcept (k found)).runFrom answer token begun).asked = [] :=
      asked_read (.ok []) k begun
    rw [hasked]
    exact List.nil_prefix
  · rw [Dialogue.bind, runFrom]
    cases (token.elim (.ok ()) (·.strike (begun + 1))).bind fun () => answer (begun + 1) s with
    | error fault => exact List.prefix_rfl
    | ok rows => exact List.cons_prefix_cons.2 ⟨rfl, (asked_read _ k _).symm ▸ List.prefix_rfl⟩

/-- **A query counts, then asks for the page**, and then for the
relationships on it. -/
theorem sends_query (q : Query) : Sends [count q, page q] ((query q).run answer token) := by
  have hrest : ∀ (total : Raw) (rows : Rows) (begun : ℕ), Sends []
      (((ofExcept (entitiesOf rows)).bind fun entities =>
        (among entities).bind fun found =>
          Dialogue.ofExcept (assemble total entities found)).runFrom answer token begun) :=
    fun _ _ begun =>
      Sends.ofExcept_bind fun entities => sends_among entities begun _
  exact Sends.poll (Sends.ask fun _ => Sends.ofExcept_bind fun total =>
    Sends.poll (Sends.ask fun rows => hrest total rows _))

/-- **Nothing that a user says is text of a statement.** Queries of one
shape count and ask for their page in the same words. Whatever a query is
answered and whoever cancels it, each statement it sends refers to the
parameters supplied with it and to no others, and the count and the page
have every key and every value that it looks for bound, each to a name of
its own. -/
theorem query_parameterized :
    (∀ a b : Query, a.shape = b.shape →
      (count a).text = (count b).text ∧ (page a).text = (page b).text) ∧
    ∀ (q : Query) (answer : ℕ → (s : Statement) → Except Fault Rows) (token : Option Token),
      Sends [count q, page q] ((query q).run answer token) ∧
        (∀ s ∈ ((query q).run answer token).asked, s.IsClosed) ∧
        (count q).Binds q ∧ (page q).Binds q := by
  refine ⟨fun a b h => text_congr h, fun q answer token => ?_⟩
  have hsends : Sends [count q, page q] ((query q).run answer token) := sends_query q
  refine ⟨hsends, fun s hs => ?_, binds_count q, binds_page q⟩
  obtain ⟨ids, hasked⟩ := hsends.asked
  have hmem : s ∈ [count q, page q] ++ [Statement.among ids] := hasked.subset hs
  simp only [List.cons_append, List.nil_append, List.mem_cons, List.not_mem_nil, or_false] at hmem
  rcases hmem with rfl | rfl | rfl
  · exact isClosed_count q
  · exact isClosed_page q
  · exact isClosed_among ids

/-- A type and a pattern that look like parts of a statement leave no trace
in its text. -/
theorem query_parameterized_injected :
    let a : Query := ⟨some "Person) DETACH DELETE n //", [("name", .text "*' OR $id = '")], 10, 5,
      Query.defaultTimeout, none⟩
    let b : Query := ⟨some "Person", [("city", .text "B*")], 1, 0, Query.defaultTimeout, none⟩
    a.shape = b.shape ∧ (count a).text = (count b).text ∧ (page a).text = (page b).text ∧
      (∀ answer token, ∀ s ∈ ((query a).run answer token).asked, s.IsClosed) ∧
      (count a).Binds a ∧ (page a).Binds a := by
  intro a b
  have hshape : a.shape = b.shape := by decide +kernel
  obtain ⟨htexts, hsent⟩ := query_parameterized
  obtain ⟨hcount, hpage⟩ := htexts a b hshape
  have hbinds := (hsent a (fun _ _ => .ok (.list [])) none).2.2
  exact ⟨hshape, hcount, hpage, fun answer token => (hsent a answer token).2.1, hbinds⟩

end Database

end KnowledgeGraph
