import KnowledgeGraph.Proofs.Number.ReadBack
import KnowledgeGraph.Proofs.Value.Quote
import KnowledgeGraph.Proofs.Value.Writing
/-!
# The canonical text says what the value is

The canonical text of a value is the plain text of its sorted form
(`canonical_eq_plain_sorted`), and plain text can be read in one way
only: whatever follows it, no two values begin alike (`plain_tells`).
So a value has the canonical text of another exactly if the two sort to
one value (`canonical_eq_ok_iff_sorted_eq`).

Quoted texts, lists and maps close what they open. The others, the
*bare* ones, only end where a character comes that none of them has, so
what follows a value is asked to begin with such a character.
-/

namespace KnowledgeGraph

namespace Canonical

/-! ## Bare texts -/

/-- What follows a value: no bare text goes on into it. -/
def Delimited (rest : List Char) : Prop := ∀ c ∈ rest.head?, isBare c = false

theorem delimited_nil : Delimited [] := by simp [Delimited]

theorem delimited_cons {c : Char} (h : isBare c = false) (rest : List Char) :
    Delimited (c :: rest) := by simpa [Delimited] using h

/-- A bare text ends where it ends. -/
theorem bare_append_inj {s t rest rest' : List Char} (hs : ∀ c ∈ s, isBare c = true)
    (ht : ∀ c ∈ t, isBare c = true) (hrest : Delimited rest) (hrest' : Delimited rest')
    (h : s ++ rest = t ++ rest') : s = t ∧ rest = rest' := by
  have hspan := congrArg (List.span isBare) h
  rw [span_append hs hrest, span_append ht hrest'] at hspan
  exact Prod.mk.inj hspan

/-! ## Words and numbers -/

theorem isIntegerChar_of_mem_decimal {n : ℤ} : ∀ c ∈ decimal n, isIntegerChar c = true := by
  intro c h
  rw [decimal, List.mem_append] at h
  rcases h with h | h
  · unfold signText at h
    split at h
    · rw [List.mem_singleton.1 h]
      rfl
    · cases h
  · simp [isIntegerChar, isDigit_of_mem_digitsOf h]

theorem decimal_injective : Function.Injective decimal := fun m n h => by
  have hread : ∀ n : ℤ, Decimal.readSign (decimal n) = (decide (n < 0), digitsOf n.natAbs) :=
    fun n => by
      obtain ⟨c, rest, hdigits⟩ := List.exists_cons_of_ne_nil (digitsOf_ne_nil n.natAbs)
      have hc : c.isDigit = true := isDigit_of_mem_digitsOf (hdigits ▸ List.mem_cons_self)
      rw [decimal, hdigits, Decimal.readSign_signText hc]
  have hpair := hread m
  rw [h, hread n, Prod.mk.injEq] at hpair
  have habs := digitsOf_injective hpair.2
  have hsign : n < 0 ↔ m < 0 := by simpa using hpair.1
  omega

/-- What is not all digits and minus signs is no integer. -/
theorem ne_decimal {text : List Char} (h : text.all isIntegerChar = false) (n : ℤ) :
    text ≠ decimal n := fun heq => by
  rw [heq, List.all_eq_true.2 isIntegerChar_of_mem_decimal] at h
  cases h

/-- **No double is written like an integer.** -/
theorem double_ne_decimal (x : Binary64) (n : ℤ) : double x ≠ decimal n :=
  ne_decimal (all_isIntegerChar_double x) n

/-- A word is no double if it does not read as one. -/
theorem word_ne_double {word : List Char} (h : Binary64.read? word = none) (x : Binary64) :
    word ≠ double x := fun heq => by
  rw [heq, Binary64.read?_double] at h
  cases h

/-! ## Telling texts apart -/

/-- Nothing that begins like this one's text, whatever follows, is the
text of another. -/
def Tells {α : Type} (p : α → List Char) (a : α) : Prop :=
  ∀ {b rest rest'}, Delimited rest → Delimited rest' → p a ++ rest = p b ++ rest' →
    a = b ∧ rest = rest'

/-- What follows the first of several texts with commas between them. -/
def afterFirst : List (List Char) → List Char
  | [] => []
  | texts => ',' :: commaSeparated texts

theorem commaSeparated_cons (text : List Char) (texts : List (List Char)) :
    commaSeparated (text :: texts) = text ++ afterFirst texts := by
  cases texts <;> simp [commaSeparated, afterFirst, List.intercalate, List.intersperse]

theorem afterFirst_cons (text : List Char) (texts : List (List Char)) :
    afterFirst (text :: texts) = ',' :: (text ++ afterFirst texts) := by
  rw [afterFirst, commaSeparated_cons]
  simp

section Items

variable {α : Type} {p : α → List Char} {close : Char} {as bs : List α} {rest rest' : List Char}

/-- After an item comes a comma or the bracket. -/
theorem delimited_afterFirst (hclose : isBare close = false) (texts : List (List Char))
    (rest : List Char) : Delimited (afterFirst texts ++ close :: rest) := by
  cases texts with
  | nil => exact delimited_cons hclose rest
  | cons => exact delimited_cons rfl _

theorem afterFirst_tells (hclose : isBare close = false) (hcomma : close ≠ ',')
    (h : ∀ a ∈ as, Tells p a)
    (heq : afterFirst (as.map p) ++ close :: rest = afterFirst (bs.map p) ++ close :: rest') :
    as = bs ∧ rest = rest' := by
  induction as generalizing bs with
  | nil =>
    cases bs with
    | nil => exact ⟨rfl, (List.cons.inj heq).2⟩
    | cons => exact absurd (List.cons.inj heq).1 hcomma
  | cons a as ih =>
    cases bs with
    | nil => exact absurd (List.cons.inj heq).1.symm hcomma
    | cons b bs =>
      rw [List.forall_mem_cons] at h
      rw [List.map_cons, List.map_cons, afterFirst_cons, afterFirst_cons] at heq
      simp only [List.cons_append, List.append_assoc] at heq
      obtain ⟨rfl, htail⟩ := h.1 (delimited_afterFirst hclose _ _)
        (delimited_afterFirst hclose _ _) (List.cons.inj heq).2
      obtain ⟨rfl, hrest⟩ := ih h.2 htail
      exact ⟨rfl, hrest⟩

/-- **A list can be told from what follows its bracket**, if its items
can be told from what follows them and none begins with the bracket. -/
theorem commaSeparated_tells (hclose : isBare close = false) (hcomma : close ≠ ',')
    (hp : ∀ a, ∃ c more, p a = c :: more ∧ c ≠ close) (h : ∀ a ∈ as, Tells p a)
    (heq : commaSeparated (as.map p) ++ close :: rest =
      commaSeparated (bs.map p) ++ close :: rest') :
    as = bs ∧ rest = rest' := by
  cases as with
  | nil =>
    cases bs with
    | nil => exact ⟨rfl, (List.cons.inj heq).2⟩
    | cons b bs =>
      obtain ⟨c, more, hb, hc⟩ := hp b
      rw [List.map_cons, commaSeparated_cons, hb] at heq
      exact absurd (List.cons.inj heq).1.symm hc
  | cons a as =>
    cases bs with
    | nil =>
      obtain ⟨c, more, ha, hc⟩ := hp a
      rw [List.map_cons, commaSeparated_cons, ha] at heq
      exact absurd (List.cons.inj heq).1 hc
    | cons b bs =>
      -- the items tell as they do behind a comma
      refine afterFirst_tells hclose hcomma h ?_
      exact congrArg (',' :: ·) heq

end Items

end Canonical

namespace Value

open Canonical

/-! ## Reading plain text -/

/-- A value that is written without quotes or brackets. -/
def IsAtom : Value → Prop
  | text _ | list _ | map _ => False
  | _ => True

theorem isBare_of_mem_plain {v : Value} (hv : v.IsAtom) : ∀ c ∈ v.plain, isBare c = true := by
  cases v with
  | null => exact List.all_eq_true.1 rfl
  | bool b => cases b <;> exact List.all_eq_true.1 rfl
  | int n =>
    intro c hc
    have hinteger := isIntegerChar_of_mem_decimal c hc
    rw [isIntegerChar, Bool.or_eq_true] at hinteger
    rcases hinteger with hdigit | hsign
    · exact isBare_of_isDigit hdigit
    · rw [of_decide_eq_true hsign]
      rfl
  | num x => exact isBare_of_mem_double
  | text => cases hv
  | list => cases hv
  | map => cases hv

/-- **Atoms are told apart by their texts.** -/
theorem plain_inj_of_isAtom {v w : Value} (hv : v.IsAtom) (hw : w.IsAtom)
    (h : v.plain = w.plain) : v = w := by
  cases v with
  | null =>
    cases w with
    | null => rfl
    | bool b => cases b <;> exact absurd h (by decide)
    | int n => exact absurd h (ne_decimal rfl n)
    | num x => exact absurd h (word_ne_double rfl x)
    | _ => cases hw
  | bool a =>
    cases w with
    | null => cases a <;> exact absurd h (by decide)
    | bool b => cases a <;> cases b <;> first | rfl | exact absurd h (by decide)
    | int n => cases a <;> exact absurd h (ne_decimal rfl n)
    | num x => cases a <;> exact absurd h (word_ne_double rfl x)
    | _ => cases hw
  | int m =>
    cases w with
    | null => exact absurd h.symm (ne_decimal rfl m)
    | bool b => cases b <;> exact absurd h.symm (ne_decimal rfl m)
    | int n => exact congrArg int (decimal_injective h)
    | num x => exact absurd h.symm (double_ne_decimal x m)
    | _ => cases hw
  | num x =>
    cases w with
    | null => exact absurd h.symm (word_ne_double rfl x)
    | bool b => cases b <;> exact absurd h.symm (word_ne_double rfl x)
    | int n => exact absurd h (double_ne_decimal x n)
    | num y => exact congrArg num (Binary64.double_injective h)
    | _ => cases hw
  | _ => cases hv

/-- The quotation mark or bracket that a value's text opens with. -/
def opener : Value → Option Char
  | text _ => some '"'
  | list _ => some '['
  | map _ => some '\x7b'
  | _ => none

theorem plain_ne_nil (v : Value) : v.plain ≠ [] := by
  cases v with
  | bool b => cases b <;> decide
  | int n => exact List.append_ne_nil_of_right_ne_nil _ (digitsOf_ne_nil _)
  | num x =>
    intro hnil
    have hall := all_isIntegerChar_double x
    rw [show double x = [] from hnil] at hall
    cases hall
  | null | text | list | map => exact List.cons_ne_nil _ _

theorem head_plain (v : Value) :
    ∃ c more, v.plain = c :: more ∧ v.opener = if isBare c then none else some c := by
  obtain ⟨c, more, hv⟩ := List.exists_cons_of_ne_nil (plain_ne_nil v)
  refine ⟨c, more, hv, ?_⟩
  have hatom : v.IsAtom → isBare c = true := fun hatom =>
    isBare_of_mem_plain hatom c (hv ▸ List.mem_cons_self)
  cases v with
  | text | list | map => rw [← (List.cons.inj hv).1]; rfl
  | null | bool | int | num => rw [hatom trivial, if_pos rfl]; rfl

theorem opener_eq {v w : Value} {rest rest' : List Char}
    (h : v.plain ++ rest = w.plain ++ rest') : v.opener = w.opener := by
  obtain ⟨c, more, hv, hopen⟩ := head_plain v
  obtain ⟨d, more', hw, hopen'⟩ := head_plain w
  rw [hv, hw] at h
  rw [hopen, hopen', (List.cons.inj h).1]

theorem isAtom_of_opener_eq_none {v : Value} (h : v.opener = none) : v.IsAtom := by
  cases v with
  | text | list | map => cases h
  | null | bool | int | num => trivial

theorem tells_of_isAtom {v : Value} (hv : v.IsAtom) : Tells plain v := by
  intro w rest rest' hrest hrest' h
  have hopener : v.opener = none := by
    cases v with
    | text | list | map => cases hv
    | null | bool | int | num => rfl
  have hw : w.IsAtom := isAtom_of_opener_eq_none (opener_eq h ▸ hopener)
  obtain ⟨hplain, hends⟩ :=
    bare_append_inj (isBare_of_mem_plain hv) (isBare_of_mem_plain hw) hrest hrest' h
  exact ⟨plain_inj_of_isAtom hv hw hplain, hends⟩

/-- No value begins with a closing bracket. -/
theorem head_plain_ne (v : Value) : ∃ c more, v.plain = c :: more ∧ c ≠ ']' := by
  obtain ⟨c, more, hv, hopener⟩ := head_plain v
  refine ⟨c, more, hv, ?_⟩
  rintro rfl
  cases v <;> cases hopener

/-- A field is told from what follows it as its value is. -/
theorem field_tells {f : String × Value} (h : Tells plain f.2) :
    Tells plainField f := by
  intro g rest rest' hrest hrest' heq
  simp only [plainField, field, List.append_assoc, List.cons_append] at heq
  obtain ⟨hkey, htail⟩ := quote_append_inj heq
  obtain ⟨hvalue, hends⟩ := h hrest hrest' (List.cons.inj htail).2
  exact ⟨Prod.ext hkey hvalue, hends⟩

/-- **Plain text can be read in one way only.** -/
theorem plain_tells (v : Value) : Tells plain v := by
  induction v using Value.induction with
  | null => exact tells_of_isAtom (v := .null) trivial
  | bool b => exact tells_of_isAtom (v := .bool b) trivial
  | int n => exact tells_of_isAtom (v := .int n) trivial
  | num x => exact tells_of_isAtom (v := .num x) trivial
  | text s =>
    intro w rest rest' hrest hrest' h
    cases w with
    | text t =>
      obtain ⟨rfl, hends⟩ := quote_append_inj h
      exact ⟨rfl, hends⟩
    | _ => exact absurd (opener_eq h) (by simp [opener])
  | list as ih =>
    intro w rest rest' hrest hrest' h
    cases w with
    | list bs =>
      simp only [plain, plainItems_eq_map, List.cons_append, List.append_assoc, List.nil_append,
        List.cons.injEq, true_and] at h
      obtain ⟨rfl, hends⟩ := commaSeparated_tells rfl (by decide) head_plain_ne ih h
      exact ⟨rfl, hends⟩
    | _ => exact absurd (opener_eq h) (by simp [opener])
  | map as ih =>
    intro w rest rest' hrest hrest' h
    cases w with
    | map bs =>
      simp only [plain, plainFields_eq_map, List.cons_append, List.append_assoc, List.nil_append,
        List.cons.injEq, true_and] at h
      have hhead : ∀ f, ∃ c more, plainField f = c :: more ∧ c ≠ '\x7d' :=
        fun f => ⟨'"', _, rfl, by decide⟩
      have hfields : ∀ f ∈ as, Tells plainField f := fun f hf => field_tells (ih f hf)
      obtain ⟨rfl, hends⟩ := commaSeparated_tells rfl (by decide) hhead hfields h
      exact ⟨rfl, hends⟩
    | _ => exact absurd (opener_eq h) (by simp [opener])

theorem plain_injective : Function.Injective plain := fun v _ h =>
  (plain_tells v delimited_nil delimited_nil (congrArg (· ++ []) h)).1

/-- **A value has the canonical text of another** exactly if the two sort
to one value. -/
theorem canonical_eq_ok_iff_sorted_eq {v w : Value} {text : List Char}
    (h : v.canonical = .ok text) : w.canonical = .ok text ↔ v.sorted = w.sorted := by
  obtain ⟨hv, rfl⟩ := canonical_eq_ok_iff.1 h
  rw [canonical_eq_ok_iff]
  constructor
  · rintro ⟨-, hplain⟩
    exact plain_injective hplain.symm
  · intro hsorted
    rw [← isWritable_sorted, ← hsorted, isWritable_sorted]
    exact ⟨hv, rfl⟩

end Value

end KnowledgeGraph
