import KnowledgeGraph.Proofs.Graph.Pages
import KnowledgeGraph.Proofs.Value.Equality
/-!
# Entities found by what they say of themselves

An entity is asked for by its type and some of its own properties. Values
are equal to themselves, so it is found, but for one thing: a text with a
star is read as a pattern, and a pattern need not match itself. One with
brackets may not (`[a]*` asks for an `a` in front), and every other does
(`matchesPattern_self`). So an entity is found by its own properties
exactly if those of them that are patterns match themselves
(`Store.mem_own`).
-/

namespace KnowledgeGraph

/-! ## Patterns that match themselves -/

namespace Text

open Wildcard

/-- No bracket is closed in a pattern. -/
def Unbracketed (pattern : List Char) : Prop :=
  ∀ before rest, pattern = before ++ '[' :: rest → ']' ∉ rest

theorem Unbracketed.tail {c : Char} {pattern : List Char} (h : Unbracketed (c :: pattern)) :
    Unbracketed pattern := fun before rest heq => h (c :: before) rest (by rw [heq]; rfl)

theorem mem_suffixes_self (text : List Char) : text ∈ suffixes text := by
  cases text <;> simp [suffixes]

theorem mem_suffixes_tail (c : Char) (text : List Char) : text ∈ suffixes (c :: text) :=
  List.mem_cons_of_mem _ (mem_suffixes_self text)

theorem bracketLength?_eq_none {text : List Char} (h : ']' ∉ text) : bracketLength? text = none := by
  unfold bracketLength?
  rw [Option.map_eq_none_iff, List.idxOf?_eq_none_iff]
  exact fun hmem => h (List.mem_of_mem_drop hmem)

theorem matchAll_parseFrom_self {pattern : List Char} (h : Unbracketed pattern) :
    matchAll (parseFrom 0 pattern) pattern = true := by
  induction pattern with
  | nil => rfl
  | cons c rest ih =>
    have hrest := ih h.tail
    rw [parseFrom]
    split
    · -- a star leaves all but the first character to the places after it
      exact List.any_eq_true.2 ⟨rest, mem_suffixes_tail c rest, hrest⟩
    · split
      · simpa [matchAll, admits] using hrest
      · split
        · rename_i hopen
          subst hopen
          rw [bracketLength?_eq_none (h [] rest rfl)]
          simpa [matchAll, admits] using hrest
        · simpa [matchAll, admits] using hrest

/-- **A pattern without closed brackets matches itself.** -/
theorem matchesPattern_self {pattern : List Char} (h : Unbracketed pattern) :
    matchesPattern pattern pattern = true := by
  rw [matchesPattern_eq_matchAll]
  exact matchAll_parseFrom_self h

end Text

namespace Value

/-- A value that is a pattern matches itself. -/
def MatchesItself (v : Value) : Prop :=
  ∀ s, v = .text s → '*' ∈ s.toList → Text.matchesPattern s.toList s.toList = true

/-- **A value meets itself exactly if it matches itself**, should it be a
pattern. -/
theorem meets_self_iff {v : Value} (hp : v.IsProper) (h : v.IsNanFree) :
    v.meets v = true ↔ v.MatchesItself := by
  by_cases hstar : ∃ s, v = .text s ∧ '*' ∈ s.toList
  · obtain ⟨s, rfl, hmem⟩ := hstar
    have hmeets : (text s).meets (text s) = Text.matchesPattern s.toList s.toList := by
      simp [meets, pattern?, hmem]
    rw [hmeets]
    exact ⟨fun h t ht _ => Value.text.inj ht ▸ h, fun h => h s rfl hmem⟩
  · have hfree : ∀ s, v = .text s → '*' ∉ s.toList := fun s hs hmem => hstar ⟨s, hs, hmem⟩
    exact iff_of_true (meets_of_equal hp hp hfree (equal_self hp h))
      fun s hs hmem => absurd hmem (hfree s hs)

end Value

namespace Store

/-- A query for the entities of an entity's type that have some of its
properties, all at once. -/
def ownQuery (e : Entity) (own : Fields) (timeout : { x : Binary64 // Binary64.zero < x }) :
    Query :=
  ⟨some e.type.text, own, 0, 0, timeout, none⟩

variable {log : List Addition} {e : Entity} {own : Fields}

theorem seeks_ownQuery_iff (hproper : (Value.map e.properties).IsProper)
    (hown : own ⊆ e.properties) (hnan : ∀ f ∈ own, f.2.IsNanFree)
    (timeout : { x : Binary64 // Binary64.zero < x }) :
    (ownQuery e own timeout).Seeks e ↔ ∀ f ∈ own, f.2.MatchesItself := by
  have htype : ∀ type ∈ (ownQuery e own timeout).entityType, e.type.text = type :=
    fun type htype => Option.some.inj htype
  rw [Query.Seeks, and_iff_right htype]
  refine forall₂_congr fun f hf => ?_
  -- under its own key an entity has the value asked for
  have hfound : e.properties.lookup f.1 = some f.2 := (mem_iff_lookup hproper.1).1 (hown hf)
  have hvalue : f.2.IsProper := Value.fieldsProper_iff.1 hproper.2 f (hown hf)
  rw [Fields.meet, hfound]
  exact Value.meets_self_iff hvalue (hnan f hf)

/-- **An entity is found by its own type and properties** exactly if those
texts among them that hold a star match themselves as patterns; so it is
if none of these has a bracket that is closed. -/
theorem mem_own (he : e ∈ (after log).entities) (hproper : (Value.map e.properties).IsProper)
    (hown : own ⊆ e.properties) (hnan : ∀ f ∈ own, f.2.IsNanFree)
    (timeout : { x : Binary64 // Binary64.zero < x }) :
    ∃ result,
      ((after log).repository.run none (GraphDialogue.query (ownQuery e own timeout))).outcome =
        .ok result ∧
      (e ∈ result.entities ↔ ∀ f ∈ own, f.2.MatchesItself) ∧
      ((∀ f ∈ own, ∀ s, f.2 = .text s → '*' ∈ s.toList → Text.Unbracketed s.toList) →
        e ∈ result.entities) := by
  have hfound : e ∈ ((after log).query (ownQuery e own timeout)).entities ↔
      ∀ f ∈ own, f.2.MatchesItself := by
    rw [← seeks_ownQuery_iff hproper hown hnan timeout, ← selects_iff]
    show e ∈ (after log).selected (ownQuery e own timeout) ↔ _
    rw [selected, List.mem_filter, and_iff_right he]
  refine ⟨_, outcome_query _ _, hfound, fun hbrackets => hfound.2 fun f hf s hs hmem => ?_⟩
  exact Text.matchesPattern_self (hbrackets f hf s hs hmem)

/-- An entity with values of many kinds, a pattern with a bracket that stays
open among them, is found by all of them. -/
theorem mem_own_document :
    let properties : Fields := [("code", .text "a[*?b"), ("sizes", .list [.int 1, .num .one]),
      ("shared", .bool true), ("origin", .map [("page", .null), ("note", .text "[a]")])]
    let e : Entity := ⟨"e", ⟨"Document", by decide⟩, properties, none⟩
    let log := [Addition.entity e]
    e ∈ (after log).entities ∧ (Value.map e.properties).IsProper ∧
      properties ⊆ e.properties ∧ (∀ f ∈ properties, f.2.IsNanFree) ∧
      ∃ result, ((after log).repository.run none
          (GraphDialogue.query (ownQuery e properties Query.defaultTimeout))).outcome =
            .ok result ∧
        e ∈ result.entities := by
  intro properties e log
  have he : e ∈ (after log).entities := List.mem_singleton_self e
  have hproper : (Value.map e.properties).IsProper := by
    simp [e, properties, Value.IsProper, Value.FieldsProper, Value.ItemsProper]
  have hnan : ∀ f ∈ properties, f.2.IsNanFree := by
    have hone : Binary64.one ≠ .nan := by decide +kernel
    simp [properties, Value.IsNanFree, Value.ItemsNanFree, Value.FieldsNanFree, hone]
  obtain ⟨result, houtcome, hiff, -⟩ :=
    mem_own he hproper (List.Subset.refl properties) hnan Query.defaultTimeout
  refine ⟨he, hproper, List.Subset.refl _, hnan, result, houtcome, hiff.2 ?_⟩
  simp only [properties, List.forall_mem_cons, Value.MatchesItself, Value.text.injEq, reduceCtorEq,
    forall_eq', false_implies, implies_true, List.not_mem_nil, and_true]
  exact fun _ => by decide +kernel

/-- An entity whose property is a pattern for other texts is not found by
it. -/
theorem not_mem_own_bracketed :
    let own : Fields := [("code", .text "[a]*")]
    let e : Entity := ⟨"e", ⟨"Template", by decide⟩, own, none⟩
    let log := [Addition.entity e]
    e ∈ (after log).entities ∧ own ⊆ e.properties ∧ (∀ f ∈ own, f.2.IsNanFree) ∧
      ∃ result, ((after log).repository.run none
          (GraphDialogue.query (ownQuery e own Query.defaultTimeout))).outcome = .ok result ∧
        e ∉ result.entities := by
  intro own e log
  have hnan : ∀ f ∈ own, f.2.IsNanFree := by simp [own, Value.IsNanFree]
  exact ⟨List.mem_singleton_self e, List.Subset.refl own, hnan, _, outcome_query _ _,
    by decide +kernel⟩

end Store

end KnowledgeGraph
