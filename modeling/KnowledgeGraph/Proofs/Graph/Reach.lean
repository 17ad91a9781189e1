import KnowledgeGraph.Graph.Repository
import Mathlib.Algebra.BigOperators.Group.Finset.Basic
import Mathlib.Algebra.Order.BigOperators.Group.Finset
import Mathlib.Algebra.Order.Ring.Nat
import Mathlib.Data.List.Lex
import Mathlib.Data.Prod.Lex
import Mathlib.Data.Set.Finite.Basic
/-!
# What a repository leads to

Seen from a source, a repository is a graph: its ids, and for each id a
list of relationships that lead on. `Surveyable` says what searches need
of it: what can be reached is finite and answered for, and its extent is
not understated. A search that goes only so far needs no more than
answers (`Answers`).

A walk takes one relationship after the other (`Walk`). It is told by the
places of these relationships in their lists, so the shorter of two walks,
and of two equally short ones the one that chooses earlier places, comes
first (`rank`). Walks that go on by one relationship compare as before
(`rank_concat_lt_rank_concat`).
-/

namespace KnowledgeGraph

/-- Relationships taken one after the other, with the ids they lead to. -/
abbrev Way := List (Relationship × String)

namespace Repository

/-- The relationships found to leave an id. -/
def links (r : Repository) (id : String) : List Relationship :=
  match r.answer (.relationships (.text id) (.bool true) (.bool false)) with
  | .ok rels => rels
  | .error _ => []

/-- The entity found under an id. -/
def entity? (r : Repository) (id : String) : Option Entity :=
  match r.answer (.entity (.text id)) with
  | .ok entity? => entity?
  | .error _ => none

/-- Whether relationships lead from a source to an id. -/
inductive Reaches (r : Repository) (source : String) : String → Prop where
  | start : Reaches r source source
  | follow {id next : String} {rel : Relationship} :
      Reaches r source id → rel ∈ r.links id → rel.neighborOf id = some next →
      Reaches r source next

/-- **A source whose surroundings can be searched.** Every question about
what can be reached is answered, there are finitely many such ids, and
the extent is at least the number of their relationships. -/
structure Surveyable (r : Repository) (source : String) : Prop where
  links_answered : ∀ id, r.Reaches source id →
    ∃ rels, r.answer (.relationships (.text id) (.bool true) (.bool false)) = .ok rels
  entity_answered : ∀ id, r.Reaches source id →
    ∃ entity?, r.answer (.entity (.text id)) = .ok entity?
  finite : { id | r.Reaches source id }.Finite
  extent : ∑ id ∈ finite.toFinset, (r.links id).length ≤ r.extent

/-- **A source about whose surroundings no question is refused**, however
far they extend. -/
structure Answers (r : Repository) (source : String) : Prop where
  links_answered : ∀ id, r.Reaches source id →
    ∃ rels, r.answer (.relationships (.text id) (.bool true) (.bool false)) = .ok rels
  entity_answered : ∀ id, r.Reaches source id →
    ∃ entity?, r.answer (.entity (.text id)) = .ok entity?

variable {r : Repository} {source : String}

theorem Surveyable.answers (h : r.Surveyable source) : r.Answers source :=
  ⟨h.links_answered, h.entity_answered⟩

theorem Answers.answer_links (h : r.Answers source) {id : String} (hid : r.Reaches source id) :
    r.answer (.relationships (.text id) (.bool true) (.bool false)) = .ok (r.links id) := by
  obtain ⟨rels, hrels⟩ := h.links_answered id hid
  rw [links, hrels]

theorem Answers.answer_entity (h : r.Answers source) {id : String} (hid : r.Reaches source id) :
    r.answer (.entity (.text id)) = .ok (r.entity? id) := by
  obtain ⟨entity?, hentity⟩ := h.entity_answered id hid
  rw [Repository.entity?, hentity]

theorem Surveyable.answer_links (h : r.Surveyable source) {id : String}
    (hid : r.Reaches source id) :
    r.answer (.relationships (.text id) (.bool true) (.bool false)) = .ok (r.links id) :=
  h.answers.answer_links hid

theorem Surveyable.answer_entity (h : r.Surveyable source) {id : String}
    (hid : r.Reaches source id) : r.answer (.entity (.text id)) = .ok (r.entity? id) :=
  h.answers.answer_entity hid

theorem Surveyable.length_links_le (h : r.Surveyable source) {id : String}
    (hid : r.Reaches source id) : (r.links id).length ≤ r.extent :=
  (Finset.single_le_sum (fun _ _ => Nat.zero_le _) (h.finite.mem_toFinset.2 hid)).trans h.extent

/-- There are not more ids than relationships that lead to them, besides
the source. -/
theorem Surveyable.card_le (h : r.Surveyable source) : h.finite.toFinset.card ≤ r.extent + 1 := by
  let neighbors := fun id => ((r.links id).filterMap fun rel => rel.neighborOf id).toFinset
  have hsubset : h.finite.toFinset ⊆ insert source (h.finite.toFinset.biUnion neighbors) := by
    intro id hid
    cases h.finite.mem_toFinset.1 hid with
    | start => exact Finset.mem_insert_self _ _
    | follow horigin hrel hnext =>
      refine Finset.mem_insert_of_mem
        (Finset.mem_biUnion.2 ⟨_, h.finite.mem_toFinset.2 horigin, ?_⟩)
      exact List.mem_toFinset.2 (List.mem_filterMap.2 ⟨_, hrel, hnext⟩)
  have hneighbors : ∀ id ∈ h.finite.toFinset, (neighbors id).card ≤ (r.links id).length :=
    fun _ _ => (List.toFinset_card_le _).trans (List.length_filterMap_le _ _)
  calc h.finite.toFinset.card
      ≤ (insert source (h.finite.toFinset.biUnion neighbors)).card := Finset.card_le_card hsubset
    _ ≤ (h.finite.toFinset.biUnion neighbors).card + 1 := Finset.card_insert_le _ _
    _ ≤ (∑ id ∈ h.finite.toFinset, (neighbors id).card) + 1 :=
      Nat.add_le_add_right Finset.card_biUnion_le 1
    _ ≤ (∑ id ∈ h.finite.toFinset, (r.links id).length) + 1 :=
      Nat.add_le_add_right (Finset.sum_le_sum hneighbors) 1
    _ ≤ r.extent + 1 := Nat.add_le_add_right h.extent 1

theorem Surveyable.length_le (h : r.Surveyable source) {ids : List String} (hnodup : ids.Nodup)
    (hids : ∀ id ∈ ids, r.Reaches source id) : ids.length ≤ r.extent + 1 := by
  rw [← List.toFinset_card_of_nodup hnodup]
  refine (Finset.card_le_card fun id hid => ?_).trans h.card_le
  exact h.finite.mem_toFinset.2 (hids id (List.mem_toFinset.1 hid))

/-! ## Walks -/

/-- A walk from an id: the places of the relationships it takes in their
lists, these relationships with the ids they lead to, and its end. -/
inductive Walk (r : Repository) : String → List ℕ → Way → String → Prop where
  | here {id : String} : Walk r id [] [] id
  | step {id next last : String} {rel : Relationship} {i : ℕ} {places : List ℕ} {steps : Way} :
      (r.links id)[i]? = some rel → rel.neighborOf id = some next →
      Walk r next places steps last → Walk r id (i :: places) ((rel, next) :: steps) last

namespace Walk

variable {id last last' next : String} {rel : Relationship} {i : ℕ} {places : List ℕ}
  {steps steps' : Way}

theorem length_eq (h : r.Walk id places steps last) : places.length = steps.length := by
  induction h with
  | here => rfl
  | step _ _ _ ih => rw [List.length_cons, List.length_cons, ih]

/-- A walk goes on with a relationship at its end. -/
theorem concat (h : r.Walk id places steps last) (hrel : (r.links last)[i]? = some rel)
    (hnext : rel.neighborOf last = some next) :
    r.Walk id (places ++ [i]) (steps ++ [(rel, next)]) next := by
  induction h with
  | here => exact step hrel hnext here
  | step hfirst hto _ ih => exact step hfirst hto (ih hrel hnext)

/-- A walk that took a last relationship got to where that starts. -/
theorem of_concat (h : r.Walk id (places ++ [i]) steps last) :
    ∃ steps' origin rel, r.Walk id places steps' origin ∧ (r.links origin)[i]? = some rel ∧
      rel.neighborOf origin = some last := by
  induction places generalizing id steps with
  | nil =>
    cases h with
    | step hrel hnext rest =>
      cases rest with
      | here => exact ⟨[], id, _, here, hrel, hnext⟩
  | cons j places ih =>
    cases h with
    | step hfirst hto rest =>
      obtain ⟨steps', origin, rel, hwalk, hrel, hnext⟩ := ih rest
      exact ⟨_, origin, rel, step hfirst hto hwalk, hrel, hnext⟩

/-- Walks go by relationships alone. -/
theorem of_links {r' : Repository} (hlinks : ∀ id, r.links id = r'.links id)
    (h : r.Walk id places steps last) : r'.Walk id places steps last := by
  induction h with
  | here => exact here
  | step hrel hnext _ ih => exact step (hlinks _ ▸ hrel) hnext ih

/-- Places tell the walk. -/
theorem unique (h : r.Walk id places steps last) (h' : r.Walk id places steps' last') :
    steps = steps' ∧ last = last' := by
  induction h generalizing steps' with
  | here => cases h' with
    | here => exact ⟨rfl, rfl⟩
  | step hrel hnext _ ih =>
    cases h' with
    | step hrel' hnext' rest' =>
      obtain rfl := Option.some.inj (hrel.symm.trans hrel')
      obtain rfl := Option.some.inj (hnext.symm.trans hnext')
      obtain ⟨rfl, rfl⟩ := ih rest'
      exact ⟨rfl, rfl⟩

/-- Walks stay within what can be reached. -/
theorem reaches (h : r.Walk id places steps last) (hid : r.Reaches source id) :
    r.Reaches source last := by
  induction h with
  | here => exact hid
  | step hrel hnext _ ih => exact ih (hid.follow (List.mem_of_getElem? hrel) hnext)

/-- Each relationship of a walk leaves the id before it and leads to the one
after it. -/
theorem step_at (h : r.Walk id places steps last) {n : ℕ} {x : String}
    (hx : (id :: steps.map Prod.snd)[n]? = some x) (hstep : steps[n]? = some (rel, next)) :
    rel ∈ r.links x ∧ rel.neighborOf x = some next := by
  induction h generalizing n with
  | here => simp at hstep
  | step hrel hto _ ih =>
    cases n with
    | zero =>
      obtain rfl := Option.some.inj hx
      obtain ⟨rfl, rfl⟩ := Prod.mk.inj (Option.some.inj hstep)
      exact ⟨List.mem_of_getElem? hrel, hto⟩
    | succ n => exact ih hx hstep

/-- From each id it comes to, what is left of a walk is a walk. -/
theorem exists_of_mem (h : r.Walk id places steps last) {x : String}
    (hx : x ∈ id :: steps.map Prod.snd) :
    ∃ places' steps', r.Walk x places' steps' last ∧
      x :: steps'.map Prod.snd <:+ id :: steps.map Prod.snd := by
  induction h with
  | here =>
    obtain rfl := List.mem_singleton.1 hx
    exact ⟨[], [], here, List.suffix_rfl⟩
  | step hrel hnext rest ih =>
    rcases List.mem_cons.1 hx with rfl | hx
    · exact ⟨_, _, step hrel hnext rest, List.suffix_rfl⟩
    · obtain ⟨places', steps', hwalk, hsuffix⟩ := ih hx
      exact ⟨places', steps', hwalk, hsuffix.trans (List.suffix_cons _ _)⟩

/-- **A walk need not come to an id twice.** It may be cut short to one
that does not, through some of its ids. -/
theorem exists_nodup (h : r.Walk id places steps last) :
    ∃ places' steps', r.Walk id places' steps' last ∧ (id :: steps'.map Prod.snd).Nodup ∧
      ∀ x ∈ id :: steps'.map Prod.snd, x ∈ id :: steps.map Prod.snd := by
  induction h with
  | here => exact ⟨[], [], here, List.nodup_singleton _, fun _ hx => hx⟩
  | @step id next last rel i places steps hrel hnext _ ih =>
    obtain ⟨places', steps', hwalk, hnodup, hsubset⟩ := ih
    by_cases hback : id ∈ next :: steps'.map Prod.snd
    · -- the walk comes back, and what follows is enough
      obtain ⟨places'', steps'', hrest, hsuffix⟩ := hwalk.exists_of_mem hback
      refine ⟨places'', steps'', hrest, hsuffix.sublist.nodup hnodup, fun x hx => ?_⟩
      exact List.mem_cons_of_mem _ (hsubset x (hsuffix.subset hx))
    · refine ⟨i :: places', (rel, next) :: steps', step hrel hnext hwalk,
        List.nodup_cons.2 ⟨hback, hnodup⟩, fun x hx => ?_⟩
      rcases List.mem_cons.1 hx with rfl | hx
      · exact List.mem_cons_self
      · exact List.mem_cons_of_mem _ (hsubset x hx)

/-- A walk comes to its end, and there it ends. -/
theorem getLast?_eq (h : r.Walk id places steps last) :
    (id :: steps.map Prod.snd).getLast? = some last := by
  induction h with
  | here => rfl
  | step _ _ _ ih => rw [List.map_cons, List.getLast?_cons_cons, ih]

theorem last_mem (h : r.Walk id places steps last) : last ∈ id :: steps.map Prod.snd :=
  List.mem_of_getLast? h.getLast?_eq

theorem reaches_of_mem (h : r.Walk id places steps last) (hid : r.Reaches source id) {x : String}
    (hx : x ∈ id :: steps.map Prod.snd) : r.Reaches source x := by
  induction h with
  | here =>
    obtain rfl := List.mem_singleton.1 hx
    exact hid
  | step hrel hnext _ ih =>
    rcases List.mem_cons.1 hx with rfl | hx
    · exact hid
    · exact ih (hid.follow (List.mem_of_getElem? hrel) hnext) hx

end Walk

/-- **What can be reached is where walks lead.** -/
theorem reaches_iff_exists_walk {id : String} :
    r.Reaches source id ↔ ∃ places steps, r.Walk source places steps id := by
  constructor
  · intro h
    induction h with
    | start => exact ⟨[], [], .here⟩
    | follow _ hrel hnext ih =>
      obtain ⟨places, steps, hwalk⟩ := ih
      obtain ⟨i, hi⟩ := List.mem_iff_getElem?.1 hrel
      exact ⟨_, _, hwalk.concat hi hnext⟩
  · rintro ⟨places, steps, hwalk⟩
    exact hwalk.reaches .start

/-! ## The order of walks -/

/-- The rank of a walk among others: by its length, and among equally long
ones by its places. -/
def rank (places : List ℕ) : Lex (ℕ × List ℕ) := toLex (places.length, places)

variable {p q : List ℕ} {i j : ℕ}

theorem rank_lt_rank_iff :
    rank p < rank q ↔ p.length < q.length ∨ p.length = q.length ∧ p < q :=
  Prod.Lex.toLex_lt_toLex

theorem rank_injective : Function.Injective rank := fun _ _ h => (Prod.mk.inj (toLex.injective h)).2

theorem length_le_of_rank_le (h : rank p ≤ rank q) : p.length ≤ q.length := by
  by_contra hlt
  exact absurd (rank_lt_rank_iff.2 (Or.inl (Nat.lt_of_not_le hlt))) (not_lt.2 h)

theorem rank_nil_le (p : List ℕ) : rank [] ≤ rank p := by
  cases p with
  | nil => exact le_rfl
  | cons i p => exact (rank_lt_rank_iff.2 (Or.inl (by simp))).le

theorem rank_lt_rank_concat (p : List ℕ) (i : ℕ) : rank p < rank (p ++ [i]) :=
  rank_lt_rank_iff.2 (Or.inl (by simp))

/-- What is chosen first decides, if the rest is equally long. -/
theorem rank_cons_lt_rank_cons (hlength : p.length = q.length) (h : i < j) :
    rank (i :: p) < rank (j :: q) :=
  rank_lt_rank_iff.2
    (Or.inr ⟨by rw [List.length_cons, List.length_cons, hlength],
      List.cons_lt_cons_iff.2 (Or.inl h)⟩)

theorem rank_cons_lt_rank_cons_iff (i : ℕ) : rank (i :: p) < rank (i :: q) ↔ rank p < rank q := by
  simp only [rank_lt_rank_iff, List.length_cons, Nat.add_lt_add_iff_right, Nat.add_right_cancel_iff,
    List.cons_lt_cons_iff, Nat.lt_irrefl, true_and, false_or]

/-- **Walks that go on by one relationship compare as before**, whichever
relationships these are. -/
theorem rank_concat_lt_rank_concat (h : rank p < rank q) (i j : ℕ) :
    rank (p ++ [i]) < rank (q ++ [j]) := by
  induction p generalizing q with
  | nil =>
    cases q with
    | nil => exact absurd h (lt_irrefl _)
    | cons b q => exact rank_lt_rank_iff.2 (Or.inl (by simp))
  | cons a p ih =>
    cases q with
    | nil => simp [rank_lt_rank_iff] at h
    | cons b q =>
      rcases rank_lt_rank_iff.1 h with hlength | ⟨hlength, hlt⟩
      · exact rank_lt_rank_iff.2 (Or.inl (by simpa using hlength))
      · have hrest : p.length = q.length := by simpa using hlength
        rcases List.cons_lt_cons_iff.1 hlt with hab | ⟨rfl, hpq⟩
        · exact rank_cons_lt_rank_cons (by simp [hrest]) hab
        · exact (rank_cons_lt_rank_cons_iff a).2 (ih (rank_lt_rank_iff.2 (Or.inr ⟨hrest, hpq⟩)))

theorem rank_concat_lt_of_lt (p : List ℕ) (h : i < j) : rank (p ++ [i]) < rank (p ++ [j]) := by
  induction p with
  | nil => exact rank_cons_lt_rank_cons rfl h
  | cons a p ih => exact (rank_cons_lt_rank_cons_iff a).2 ih

theorem rank_concat_le_rank_concat (h : rank p ≤ rank q) (hij : i ≤ j) :
    rank (p ++ [i]) ≤ rank (q ++ [j]) := by
  rcases h.lt_or_eq with hlt | heq
  · exact (rank_concat_lt_rank_concat hlt i j).le
  · obtain rfl := rank_injective heq
    rcases hij.lt_or_eq with hlt | rfl
    · exact (rank_concat_lt_of_lt p hlt).le
    · exact le_rfl

/-- No walk comes between one that goes on by some relationship and one
that goes on by the next in the list. -/
theorem rank_concat_le_of_lt_succ (h : rank (q ++ [j]) < rank (p ++ [i + 1])) :
    rank (q ++ [j]) ≤ rank (p ++ [i]) := by
  rcases lt_trichotomy (rank q) (rank p) with hlt | heq | hgt
  · exact (rank_concat_lt_rank_concat hlt j i).le
  · obtain rfl := rank_injective heq
    refine rank_concat_le_rank_concat le_rfl (Nat.le_of_lt_succ ?_)
    by_contra hij
    exact absurd h (not_lt.2 (rank_concat_le_rank_concat le_rfl (Nat.le_of_not_lt hij)))
  · exact absurd h (lt_asymm (rank_concat_lt_rank_concat hgt (i + 1) j))

/-! ## First walks -/

/-- A walk before which no other to the same end comes. -/
def FirstWalk (r : Repository) (source : String) (places : List ℕ) (steps : Way)
    (last : String) : Prop :=
  r.Walk source places steps last ∧
    ∀ places' steps', r.Walk source places' steps' last → rank places ≤ rank places'

/-- A walk that takes no relationship is the first. -/
theorem firstWalk_here (r : Repository) (source : String) : r.FirstWalk source [] [] source :=
  ⟨.here, fun places _ _ => rank_nil_le places⟩

namespace FirstWalk

variable {goal id next : String} {rel : Relationship} {places places' : List ℕ} {steps way : Way}

/-- What is left of the first walk is the first walk from there. -/
theorem tail (h : r.FirstWalk id (i :: places) ((rel, next) :: steps) goal) :
    (r.links id)[i]? = some rel ∧ rel.neighborOf id = some next ∧
      r.FirstWalk next places steps goal := by
  obtain ⟨hwalk, hfirst⟩ := h
  cases hwalk with
  | step hrel hto hrest =>
    refine ⟨hrel, hto, hrest, fun places' steps' hwalk' => ?_⟩
    by_contra hlt
    have hless := (rank_cons_lt_rank_cons_iff i).2 (not_le.1 hlt)
    exact absurd (hfirst _ _ (.step hrel hto hwalk')) (not_le.2 hless)

/-- No way is shorter than the first walk. -/
theorem length_le (h : r.FirstWalk id places steps goal) (hwalk : r.Walk id places' way goal) :
    steps.length ≤ way.length := by
  have hle := length_le_of_rank_le (h.2 _ _ hwalk)
  rwa [h.1.length_eq, hwalk.length_eq] at hle

theorem exists_cons {step : Relationship × String}
    (h : r.FirstWalk id places (step :: steps) goal) : ∃ i rest, places = i :: rest := by
  cases h.1 with
  | step _ _ _ => exact ⟨_, _, rfl⟩

theorem eq_nil (h : r.FirstWalk id places steps id) : steps = [] :=
  List.length_eq_zero_iff.1 (Nat.le_zero.1 (h.length_le Walk.here))

/-- **The first walk comes to no id twice**, for from the second time on it
would be shorter. -/
theorem nodup (h : r.FirstWalk id places steps goal) : (id :: steps.map Prod.snd).Nodup := by
  induction steps generalizing id places with
  | nil => exact List.nodup_singleton id
  | cons step steps ih =>
    obtain ⟨rel, next⟩ := step
    obtain ⟨i, rest, rfl⟩ := h.exists_cons
    obtain ⟨-, -, htail⟩ := h.tail
    refine List.nodup_cons.2 ⟨fun hmem => ?_, ih htail⟩
    obtain ⟨places', steps', hwalk, hsuffix⟩ := htail.1.exists_of_mem hmem
    have hle := h.length_le hwalk
    have hless := hsuffix.length_le
    simp only [List.length_cons, List.length_map] at hle hless
    omega

end FirstWalk

end Repository

end KnowledgeGraph
