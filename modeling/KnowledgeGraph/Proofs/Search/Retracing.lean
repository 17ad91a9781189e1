import KnowledgeGraph.Keyed
import KnowledgeGraph.Proofs.Dialogue.Playing
import KnowledgeGraph.Proofs.Graph.Reach
import KnowledgeGraph.Search.Basic
/-!
# Ways walked back

A search that arrives somewhere turns what it remembers into a path: it
goes back to the source step by step (`Trace.Leads`, `Trace.back_eq`) and
asks for the entities along the way, for none of them twice. What comes
out is the path along these steps, or none if an entity is missing
(`Repository.pathOf`). The weight a search puts on it decides nothing
else (`play_pathAlong_unweighted`).
-/

namespace KnowledgeGraph

namespace Trace

/-- The steps that a trace remembers from the source to an id: the
relationships followed, with the ids they led to. -/
inductive Leads (trace : Trace) (source : String) :
    String → Way → Prop where
  | here : Leads trace source source []
  | onward {id origin : String} {rel : Relationship} {steps : Way} :
      id ≠ source → trace.lookup id = some (origin, rel) → Leads trace source origin steps →
      Leads trace source id (steps ++ [(rel, id)])

variable {trace : Trace} {source id : String} {steps : Way}

/-- Something is remembered of every id on the way. -/
theorem Leads.remembered (h : trace.Leads source id steps) {x : String}
    (hx : x ∈ steps.map Prod.snd) : x ∈ trace.map Prod.fst := by
  induction h with
  | here => cases hx
  | @onward id _ _ _ _ hlookup _ ih =>
    rw [List.map_append, List.mem_append] at hx
    rcases hx with hx | hx
    · exact ih hx
    · obtain rfl := List.mem_singleton.1 hx
      exact List.mem_map.2 ⟨_, mem_of_lookup hlookup, rfl⟩

/-- What is remembered anew of an id changes no way that does not come to
it. -/
theorem Leads.cons_of_notMem (h : trace.Leads source id steps) {next : String}
    (hnext : next ∉ steps.map Prod.snd) (memory : String × Relationship) :
    Leads ((next, memory) :: trace) source id steps := by
  induction h with
  | here => exact here
  | @onward id _ _ _ hid hlookup _ ih =>
    rw [List.map_append, List.mem_append, not_or] at hnext
    have hne : id ≠ next := fun heq => hnext.2 (List.mem_singleton.2 heq.symm)
    refine onward hid ?_ (ih hnext.1)
    rwa [lookup_cons_of_ne hne]

/-- What is remembered stays so while other ids are reached. -/
theorem Leads.cons (h : trace.Leads source id steps) {next : String}
    (hnew : trace.lookup next = none) (memory : String × Relationship) :
    Leads ((next, memory) :: trace) source id steps :=
  h.cons_of_notMem (fun hmem => lookup_eq_none_iff.1 hnew (h.remembered hmem)) memory

/-- Where no id is come to twice, there are not more steps than memories. -/
theorem Leads.length_le (h : trace.Leads source id steps)
    (hnodup : (source :: steps.map Prod.snd).Nodup) : steps.length ≤ trace.length := by
  have hsub : (steps.map Prod.snd).Subperm (trace.map Prod.fst) :=
    (List.nodup_cons.1 hnodup).2.subperm fun x hx => h.remembered hx
  simpa using hsub.length_le

/-- Steps back, put in front of what is known to follow. -/
theorem Leads.backFrom (h : trace.Leads source id steps) {budget : ℕ}
    (hbudget : steps.length ≤ budget) (ids : List String) (followed : List Relationship) :
    trace.backFrom source budget id (id :: ids) followed =
      .ok (source :: (steps.map Prod.snd ++ ids), steps.map Prod.fst ++ followed) := by
  induction h generalizing budget ids followed with
  | here =>
    unfold Trace.backFrom
    rw [if_pos rfl]
    rfl
  | @onward id origin rel steps hid hlookup _ ih =>
    rw [List.length_append, List.length_singleton] at hbudget
    obtain ⟨budget, rfl⟩ : ∃ rest, budget = rest + 1 := ⟨budget - 1, by omega⟩
    unfold Trace.backFrom
    rw [if_neg hid]
    simp only [hlookup]
    rw [ih (by omega) (id :: ids) (rel :: followed)]
    simp

/-- A step to an id that was not come to before. -/
theorem nodup_onward (hnodup : (source :: steps.map Prod.snd).Nodup) (rel : Relationship)
    (hnew : id ∉ source :: steps.map Prod.snd) :
    (source :: (steps ++ [(rel, id)]).map Prod.snd).Nodup := by
  rw [List.map_append, List.map_singleton, ← List.cons_append, List.nodup_append']
  exact ⟨hnodup, List.nodup_singleton _, List.disjoint_singleton.2 hnew⟩

/-- **The way back is the way that was remembered.** -/
theorem Leads.back_eq (h : trace.Leads source id steps) (hlength : steps.length ≤ trace.length) :
    trace.back source id = .ok (source :: steps.map Prod.snd, steps.map Prod.fst) := by
  rw [back, h.backFrom hlength]
  simp

end Trace

/-! ## Entities along a way -/

section MapM

variable {α β : Type} {f : α → Option β} {xs : List α} {ys : List β}

/-- What is looked up for all of a list is what is looked up for each. -/
theorem mapM_eq_some_iff : xs.mapM f = some ys ↔ xs.map f = ys.map some := by
  induction xs generalizing ys with
  | nil => cases ys <;> simp
  | cons x xs ih =>
    rw [List.mapM_cons, List.map_cons]
    cases ys with
    | nil => cases f x <;> simp [Option.bind_eq_some_iff]
    | cons y ys => cases f x <;> simp [Option.bind_eq_some_iff, ih, and_comm]

/-- All of it is found if each is. -/
theorem isSome_mapM_iff : (xs.mapM f).isSome ↔ ∀ x ∈ xs, (f x).isSome := by
  induction xs with
  | nil => simp
  | cons x xs ih =>
    rw [List.mapM_cons, List.forall_mem_cons, ← ih]
    cases f x <;> cases xs.mapM f <;> simp

theorem length_of_mapM_eq_some (h : xs.mapM f = some ys) : ys.length = xs.length := by
  rw [← List.length_map (f := some), ← mapM_eq_some_iff.1 h, List.length_map]

/-- What was looked up tells what it was looked up for. -/
theorem map_of_mapM_eq_some {g : β → α} (h : xs.mapM f = some ys)
    (hback : ∀ x ∈ xs, ∀ y, f x = some y → g y = x) : ys.map g = xs := by
  induction xs generalizing ys with
  | nil => simpa using (mapM_eq_some_iff.1 h).symm
  | cons x xs ih =>
    have hmap := mapM_eq_some_iff.1 h
    cases ys with
    | nil => simp at hmap
    | cons y ys =>
      rw [List.map_cons, List.map_cons, List.cons.injEq] at hmap
      have hrest := ih (mapM_eq_some_iff.2 hmap.2) fun x hx => hback x (List.mem_cons_of_mem _ hx)
      rw [List.map_cons, hrest, hback x List.mem_cons_self y hmap.1]

end MapM

/-- The path along some steps from a source, if all its ids have
entities. Its weight is left at zero. -/
def Repository.pathOf (r : Repository) (source : String) (steps : Way) : Option Path :=
  ((source :: steps.map Prod.snd).mapM r.entity?).pmap
    (fun entities h => ⟨entities, steps.map Prod.fst, .zero, h⟩)
    (fun _ h => by simpa using length_of_mapM_eq_some h)

/-- A path with some weight. -/
def Path.weighing (weight : Binary64) (p : Path) : Path := { p with totalWeight := weight }

namespace Repository

/-- What is found to a goal by the order of walks: the path along the
first walk there, or none if no walk leads there. -/
inductive FirstPath (r : Repository) (source goal : String) : Option Path → Prop where
  | along {places : List ℕ} {steps : Way} :
      r.FirstWalk source places steps goal → FirstPath r source goal (r.pathOf source steps)
  | nowhere : (∀ places steps, ¬ r.Walk source places steps goal) → FirstPath r source goal none

variable {r : Repository} {source : String} {steps : Way} {p : Path}

theorem hops_of_pathOf (h : r.pathOf source steps = some p) : p.hops = steps.length := by
  obtain ⟨entities, hlength, -, rfl⟩ := Option.pmap_eq_some_iff.1 h
  exact List.length_map _

theorem pathOf_nil (r : Repository) (source : String) :
    r.pathOf source [] = (r.entity? source).map fun e => ⟨[e], [], .zero, rfl⟩ := by
  cases hentity : r.entity? source with
  | none => exact Option.pmap_eq_none_iff.2 (by simp [hentity])
  | some e => exact Option.pmap_eq_some_iff.2 ⟨[e], rfl, by simp [hentity], rfl⟩

/-- The weight of a path along some steps is zero as it is. -/
theorem map_weighing_zero_pathOf (r : Repository) (source : String) (steps : Way) :
    (r.pathOf source steps).map (Path.weighing .zero) = r.pathOf source steps := by
  rw [pathOf, Option.map_pmap]
  rfl

/-- Where every id has an entity there is a path along any steps. -/
theorem isSome_pathOf (h : ∀ id ∈ source :: steps.map Prod.snd, (r.entity? id).isSome) :
    (r.pathOf source steps).isSome := by
  rw [pathOf, Option.isSome_pmap]
  exact isSome_mapM_iff.2 h

/-- And where there is a path every id has one. -/
theorem isSome_entity?_of_pathOf (h : r.pathOf source steps = some p) {id : String}
    (hid : id ∈ source :: steps.map Prod.snd) : (r.entity? id).isSome := by
  obtain ⟨entities, -, hentities, -⟩ := Option.pmap_eq_some_iff.1 h
  exact isSome_mapM_iff.1 (Option.isSome_of_eq_some hentities) id hid

end Repository

namespace Resolved

/-- Entities as the repository has them. -/
def Agrees (known : Resolved) (r : Repository) : Prop :=
  ∀ id entity?, known.lookup id = some entity? → entity? = r.entity? id

variable {r : Repository} {known : Resolved}

theorem agrees_nil (r : Repository) : Agrees [] r := fun _ _ h => nomatch h

/-- An entity is found, whether it has to be asked for or not. -/
theorem Agrees.play_entity (h : known.Agrees r) {id : String}
    (hid : r.answer (.entity (.text id)) = .ok (r.entity? id)) :
    ∃ asked known', (known.entity id).play r.answer = ⟨asked, .ok (r.entity? id, known')⟩ ∧
      Agrees known' r := by
  unfold Resolved.entity
  cases hlookup : known.lookup id with
  | some entity? =>
    obtain rfl := h id entity? hlookup
    exact ⟨[], known, rfl, h⟩
  | none =>
    refine ⟨[.entity (.text id)], (id, r.entity? id) :: known, ?_, fun id' entity? h' => ?_⟩
    · exact Dialogue.play_ask_of_ok hid _
    · rw [List.lookup_cons] at h'
      split at h'
      · rename_i heq
        obtain rfl := eq_of_beq heq
        exact (Option.some.inj h').symm
      · exact h id' entity? h'

/-- Entities are found up to the first that is missing. -/
theorem Agrees.play_entities (h : known.Agrees r) {ids : List String}
    (hids : ∀ id ∈ ids, r.answer (.entity (.text id)) = .ok (r.entity? id)) :
    ∃ asked known', (entities ids known).play r.answer =
      ⟨asked, .ok (ids.mapM r.entity?, known')⟩ ∧ Agrees known' r := by
  induction ids generalizing known with
  | nil => exact ⟨[], known, rfl, h⟩
  | cons id ids ih =>
    obtain ⟨first, known', hfirst, h'⟩ := h.play_entity (hids id List.mem_cons_self)
    obtain ⟨others, known'', hothers, h''⟩ :=
      ih h' fun id' hid' => hids id' (List.mem_cons_of_mem _ hid')
    rw [entities, Dialogue.play_bind, hfirst, Dialogue.Run.andThen_ok, List.mapM_cons]
    cases hid : r.entity? id with
    | none => exact ⟨_, known', rfl, h'⟩
    | some e =>
      refine ⟨first ++ (others ++ []), known'', ?_, h''⟩
      dsimp only
      rw [Dialogue.play_bind, hothers, Dialogue.Run.andThen_ok]
      cases ids.mapM r.entity? <;> rfl

/-- **The path along some steps is found**, if there is one, with the weight
it is given. -/
theorem Agrees.play_path_weighing (h : known.Agrees r) {source : String} {steps : Way}
    (hids : ∀ id ∈ source :: steps.map Prod.snd,
      r.answer (.entity (.text id)) = .ok (r.entity? id)) (weight : Binary64) :
    ∃ asked known', (known.path (source :: steps.map Prod.snd) (steps.map Prod.fst) weight).play
      r.answer = ⟨asked, .ok ((r.pathOf source steps).map (.weighing weight), known')⟩ ∧
      Agrees known' r := by
  obtain ⟨asked, known', hplay, h'⟩ := h.play_entities hids
  rw [Resolved.path, Dialogue.play_bind, hplay, Dialogue.Run.andThen_ok]
  cases hentities : (source :: steps.map Prod.snd).mapM r.entity? with
  | none =>
    refine ⟨asked ++ [], known', ?_, h'⟩
    have hnone : r.pathOf source steps = none := Option.pmap_eq_none_iff.2 hentities
    rw [hnone]
    rfl
  | some es =>
    have hlength : es.length = (steps.map Prod.fst).length + 1 := by
      simpa using length_of_mapM_eq_some hentities
    have hpath : r.pathOf source steps = some ⟨es, steps.map Prod.fst, .zero, hlength⟩ :=
      Option.pmap_eq_some_iff.2 ⟨es, hlength, hentities, rfl⟩
    refine ⟨asked ++ [], known', ?_, h'⟩
    have hparts : Path.ofParts es (steps.map Prod.fst) weight =
        .accept ⟨es, steps.map Prod.fst, weight, hlength⟩ := dif_pos hlength
    dsimp only
    rw [hparts, hpath]
    rfl

/-- A path that is not weighed is found as it is. -/
theorem Agrees.play_path (h : known.Agrees r) {source : String} {steps : Way}
    (hids : ∀ id ∈ source :: steps.map Prod.snd,
      r.answer (.entity (.text id)) = .ok (r.entity? id)) :
    ∃ asked known', (known.path (source :: steps.map Prod.snd) (steps.map Prod.fst) .zero).play
      r.answer = ⟨asked, .ok (r.pathOf source steps, known')⟩ ∧ Agrees known' r := by
  have hplay := h.play_path_weighing hids .zero
  rwa [r.map_weighing_zero_pathOf] at hplay

end Resolved

namespace Search

variable {r : Repository} {trace : Trace} {source target : String} {steps : Way}

/-- **A trace is followed to the path along the steps it remembers**, with
the weight it is given. -/
theorem play_pathAlong_weighing (h : trace.Leads source target steps)
    (hlength : steps.length ≤ trace.length)
    (hids : ∀ id ∈ source :: steps.map Prod.snd,
      r.answer (.entity (.text id)) = .ok (r.entity? id)) (weight : Binary64) :
    ((pathAlong trace source target weight).play r.answer).outcome =
      .ok ((r.pathOf source steps).map (.weighing weight)) := by
  obtain ⟨asked, known', hplay, -⟩ := (Resolved.agrees_nil r).play_path_weighing hids weight
  rw [pathAlong, h.back_eq hlength, Dialogue.ofExcept, Dialogue.bind, Dialogue.play_bind, hplay]
  rfl

theorem play_pathAlong (h : trace.Leads source target steps)
    (hlength : steps.length ≤ trace.length)
    (hids : ∀ id ∈ source :: steps.map Prod.snd,
      r.answer (.entity (.text id)) = .ok (r.entity? id)) :
    ((pathAlong trace source target .zero).play r.answer).outcome =
      .ok (r.pathOf source steps) := by
  rw [play_pathAlong_weighing h hlength hids, r.map_weighing_zero_pathOf]

end Search

/-- A path with its weight left at zero. -/
def Path.unweighted (p : Path) : Path := { p with totalWeight := .zero }

theorem Path.ofParts_unweighted (entities : List Entity) (followed : List Relationship)
    (weight : Binary64) :
    ((ofParts entities followed weight).orFault .path).map unweighted =
      (ofParts entities followed .zero).orFault .path := by
  unfold ofParts
  split <;> rfl

theorem Resolved.play_path_unweighted (answer : (q : GraphQuestion) → Except Fault q.Answer)
    (known : Resolved) (ids : List String) (followed : List Relationship) (weight : Binary64) :
    ((known.path ids followed weight).play answer).map (Prod.map (Option.map Path.unweighted) id) =
      (known.path ids followed .zero).play answer := by
  rw [Resolved.path, Resolved.path, Dialogue.play_bind, Dialogue.play_bind,
    Dialogue.Run.map_andThen]
  congr
  funext (entities?, known')
  cases entities? with
  | none => rfl
  | some es =>
    dsimp only
    rw [← Path.ofParts_unweighted es followed weight]
    cases (Path.ofParts es followed weight).orFault .path <;> rfl

/-- **The weight of a path decides nothing else about it.** -/
theorem Search.play_pathAlong_unweighted (answer : (q : GraphQuestion) → Except Fault q.Answer)
    (trace : Trace) (source target : String) (weight : Binary64) :
    ((pathAlong trace source target weight).play answer).map (Option.map Path.unweighted) =
      (pathAlong trace source target .zero).play answer := by
  rw [pathAlong, pathAlong, Dialogue.play_bind, Dialogue.play_bind, Dialogue.Run.map_andThen]
  congr
  funext (ids, followed)
  dsimp only
  rw [Dialogue.play_bind, Dialogue.play_bind, Dialogue.Run.map_andThen,
    ← Resolved.play_path_unweighted answer [] ids followed weight, Dialogue.Run.andThen_map]
  rfl

end KnowledgeGraph
