import KnowledgeGraph.Database.Clause
import Mathlib.Data.List.TFAE
import Mathlib.Tactic.TFAE
/-!
# Wildcards in both kinds of repository

A wildcard pattern is matched here, and a database is given a regular
expression in its place. Where stars are the only special characters of
the pattern, both say the same of a text without line ends
(`meets_tfae`): that it is made of the pieces between the stars, in
order, with anything in the gaps.

All three readings go through the pattern one character at a time. So
each is compared with `Spells`, which does just that: a star leaves a
gap, and every other character has to be there.
-/

namespace KnowledgeGraph

/-! ## Pieces and gaps -/

namespace Text

/-- Pieces with a gap after each but the last. -/
def interleave : List (List Char) → List (List Char) → List Char
  | piece :: pieces, gap :: gaps => piece ++ gap ++ interleave pieces gaps
  | pieces, [] => pieces.flatten
  | [], gaps => gaps.flatten

/-- Whether a text is what a pattern spells: each of its characters in
turn, and anything for a star. -/
def Spells : List Char → List Char → Prop
  | [], text => text = []
  | c :: pattern, text =>
    if c = '*' then ∃ gap rest, text = gap ++ rest ∧ Spells pattern rest
    else ∃ rest, text = c :: rest ∧ Spells pattern rest

theorem spells_star {pattern text : List Char} :
    Spells ('*' :: pattern) text ↔ ∃ gap rest, text = gap ++ rest ∧ Spells pattern rest := by
  rw [Spells, if_pos rfl]

theorem spells_char {c : Char} (hc : c ≠ '*') {pattern text : List Char} :
    Spells (c :: pattern) text ↔ ∃ rest, text = c :: rest ∧ Spells pattern rest := by
  rw [Spells, if_neg hc]

/-- **A pattern spells its pieces with gaps between them.** -/
theorem spells_iff_interleave (pattern text : List Char) :
    Spells pattern text ↔
      ∃ gaps : List (List Char), gaps.length + 1 = (pattern.splitOn '*').length ∧
        text = interleave (pattern.splitOn '*') gaps := by
  induction pattern generalizing text with
  | nil =>
    rw [List.splitOn_nil]
    constructor
    · rintro rfl
      exact ⟨[], rfl, rfl⟩
    · rintro ⟨gaps, hlength, rfl⟩
      obtain rfl : gaps = [] := List.eq_nil_of_length_eq_zero (by simpa using hlength)
      rfl
  | cons c pattern ih =>
    rw [List.splitOn_cons_eq_if_modifyHead]
    by_cases hc : c = '*'
    · subst hc
      rw [spells_star, if_pos (beq_self_eq_true _)]
      constructor
      · rintro ⟨gap, rest, rfl, hrest⟩
        obtain ⟨gaps, hlength, rfl⟩ := (ih rest).1 hrest
        exact ⟨gap :: gaps, by simp [hlength], rfl⟩
      · rintro ⟨gaps, hlength, rfl⟩
        cases gaps with
        | nil =>
          have := List.length_pos_iff.2 (List.splitOn_ne_nil '*' pattern)
          simp only [List.length_nil, List.length_cons] at hlength
          omega
        | cons gap gaps =>
          exact ⟨gap, interleave (pattern.splitOn '*') gaps, rfl,
            (ih _).2 ⟨gaps, by simpa using hlength, rfl⟩⟩
    · rw [spells_char hc, if_neg (by simpa using hc)]
      obtain ⟨piece, pieces, hpieces⟩ :=
        List.exists_cons_of_ne_nil (List.splitOn_ne_nil '*' pattern)
      -- the character goes in front of the first piece
      have hfront : ∀ gaps, interleave ((c :: piece) :: pieces) gaps =
          c :: interleave (piece :: pieces) gaps := fun gaps => by
        cases gaps <;> simp [interleave]
      rw [hpieces, List.modifyHead_cons]
      simp only [hpieces] at ih
      constructor
      · rintro ⟨rest, rfl, hrest⟩
        obtain ⟨gaps, hlength, rfl⟩ := (ih rest).1 hrest
        exact ⟨gaps, hlength, (hfront gaps).symm⟩
      · rintro ⟨gaps, hlength, rfl⟩
        exact ⟨_, hfront gaps, (ih _).2 ⟨gaps, hlength, rfl⟩⟩

/-! ## Matching here -/

namespace Wildcard

/-- What a character stands for where only stars are special. -/
def ofChar (c : Char) : Wildcard := if c = '*' then star else char c

theorem parse_eq_map {pattern : List Char} (hany : '?' ∉ pattern) (hset : '[' ∉ pattern) :
    parse pattern = pattern.map ofChar := by
  unfold parse
  induction pattern with
  | nil => rfl
  | cons c pattern ih =>
    rw [List.mem_cons, not_or] at hany hset
    rw [List.map_cons, parseFrom, if_neg (Ne.symm hany.1), if_neg (Ne.symm hset.1),
      ih hany.2 hset.2]
    unfold ofChar
    split <;> rfl

theorem mem_suffixes (text rest : List Char) :
    rest ∈ suffixes text ↔ ∃ gap, text = gap ++ rest := by
  induction text with
  | nil => simp [suffixes, eq_comm]
  | cons c text ih =>
    rw [suffixes, List.mem_cons, ih]
    constructor
    · rintro (rfl | ⟨gap, rfl⟩)
      · exact ⟨[], rfl⟩
      · exact ⟨c :: gap, rfl⟩
    · rintro ⟨gap, hgap⟩
      cases gap with
      | nil => exact Or.inl hgap.symm
      | cons d gap => exact Or.inr ⟨gap, (List.cons.inj hgap).2⟩

theorem matchAll_map_ofChar (pattern text : List Char) :
    matchAll (pattern.map ofChar) text = true ↔ Spells pattern text := by
  induction pattern generalizing text with
  | nil => simp [matchAll, Spells]
  | cons c pattern ih =>
    rw [List.map_cons, ofChar]
    by_cases hc : c = '*'
    · subst hc
      rw [if_pos rfl, spells_star, matchAll, List.any_eq_true]
      constructor
      · rintro ⟨rest, hrest, hmatch⟩
        obtain ⟨gap, rfl⟩ := (mem_suffixes text rest).1 hrest
        exact ⟨gap, rest, rfl, (ih rest).1 hmatch⟩
      · rintro ⟨gap, rest, rfl, hrest⟩
        exact ⟨rest, (mem_suffixes _ rest).2 ⟨gap, rfl⟩, (ih rest).2 hrest⟩
    · rw [if_neg hc, spells_char hc]
      cases text with
      | nil => simp [matchAll]
      | cons d text =>
        have hstep : matchAll (char c :: pattern.map ofChar) (d :: text) =
            (decide (d = c) && matchAll (pattern.map ofChar) text) := by
          simp [matchAll, admits]
        rw [hstep, Bool.and_eq_true, decide_eq_true_iff, ih]
        constructor
        · rintro ⟨rfl, hrest⟩
          exact ⟨text, rfl, hrest⟩
        · rintro ⟨rest, heq, hrest⟩
          obtain ⟨rfl, rfl⟩ := List.cons.inj heq
          exact ⟨rfl, hrest⟩

end Wildcard

end Text

/-! ## Matching in a database -/

namespace RegularExpression

/-- What one place of a regular expression stands for. -/
inductive Place where
  /-- this character -/
  | literal (c : Char)
  /-- any run of characters that do not end a line -/
  | run
deriving DecidableEq

/-- The places of an expression up to the dollar sign at its end, which
has to be there. A backslash makes a literal of what follows it, and a
point with a star stands for a run. -/
def readPlaces : List Char → Option (List Place)
  | [] => none
  | ['$'] => some []
  | '\\' :: c :: rest => (readPlaces rest).map (.literal c :: ·)
  | '.' :: '*' :: rest => (readPlaces rest).map (.run :: ·)
  | c :: rest => (readPlaces rest).map (.literal c :: ·)

/-- The places of an expression between its two anchors. -/
def read : List Char → Option (List Place)
  | '^' :: rest => readPlaces rest
  | _ => none

/-- Whether places match a whole text, given which characters end a
line. -/
def Matches (endsLine : Char → Bool) : List Place → List Char → Prop
  | [], text => text = []
  | .literal c :: places, text => ∃ rest, text = c :: rest ∧ Matches endsLine places rest
  | .run :: places, text =>
    ∃ gap rest, text = gap ++ rest ∧ (∀ c ∈ gap, endsLine c = false) ∧ Matches endsLine places rest

/-- Whether an expression accepts a text. -/
def Accepts (endsLine : Char → Bool) (expression text : List Char) : Prop :=
  ∃ places, read expression = some places ∧ Matches endsLine places text

/-- What a character of a pattern becomes in its expression. -/
def Place.ofChar (c : Char) : Place := if c = '*' then run else literal c

open Clause

theorem pieces_eq_splitOn (pattern : List Char) : pieces pattern = pattern.splitOn '*' := by
  induction pattern with
  | nil => rfl
  | cons c pattern ih =>
    obtain ⟨piece, others, hpieces⟩ := List.exists_cons_of_ne_nil (List.splitOn_ne_nil '*' pattern)
    rw [pieces, List.splitOn_cons_eq_if_modifyHead, ih, hpieces]
    by_cases hc : c = '*'
    · rw [if_pos hc, if_pos (by simpa using hc)]
    · rw [if_neg hc, if_neg (by simpa using hc), List.modifyHead_cons]

/-- What stands between the anchors. -/
def body (pattern : List Char) : List Char :=
  ".*".toList.intercalate ((pieces pattern).map escape)

theorem body_star (pattern : List Char) : body ('*' :: pattern) = '.' :: '*' :: body pattern := by
  obtain ⟨piece, others, hpieces⟩ := List.exists_cons_of_ne_nil (List.splitOn_ne_nil '*' pattern)
  rw [body, body, pieces, if_pos rfl, pieces_eq_splitOn, hpieces, List.map_cons, List.map_cons,
    List.intercalate_cons_cons]
  rfl

theorem body_char {c : Char} (hc : c ≠ '*') (pattern : List Char) :
    body (c :: pattern) = escape [c] ++ body pattern := by
  obtain ⟨piece, others, hpieces⟩ := List.exists_cons_of_ne_nil (List.splitOn_ne_nil '*' pattern)
  have hescape : escape (c :: piece) = escape [c] ++ escape piece := by
    rw [escape, escape, escape, List.flatMap_cons, List.flatMap_singleton]
  rw [body, body, pieces, if_neg hc, pieces_eq_splitOn, hpieces]
  dsimp only
  rw [List.map_cons, List.map_cons, hescape]
  cases others with
  | nil => simp [List.intercalate]
  | cons other others => rw [List.map_cons, List.intercalate_cons_cons, List.intercalate_cons_cons,
      List.append_assoc, List.append_assoc, List.append_assoc]

/-- An escaped character reads as itself. -/
theorem readPlaces_escape (c : Char) (rest : List Char) :
    readPlaces (escape [c] ++ rest) = (readPlaces rest).map (.literal c :: ·) := by
  rw [escape, List.flatMap_singleton]
  by_cases hc : specialChars.contains c
  · rw [if_pos hc]
    simp [readPlaces]
  · rw [if_neg hc]
    have hback : c ≠ '\\' := fun h => hc (by rw [h]; rfl)
    have hpoint : c ≠ '.' := fun h => hc (by rw [h]; rfl)
    have hdollar : c ≠ '$' := fun h => hc (by rw [h]; rfl)
    simp [readPlaces, hback, hpoint, hdollar]

/-- **The expression of a pattern reads as the pattern**, place by
place. -/
theorem read_regularExpression (pattern : List Char) :
    read (regularExpression pattern) = some (pattern.map Place.ofChar) := by
  show readPlaces (body pattern ++ ['$']) = _
  induction pattern with
  | nil => rfl
  | cons c pattern ih =>
    rw [List.map_cons, Place.ofChar]
    by_cases hc : c = '*'
    · subst hc
      rw [body_star, if_pos rfl, List.cons_append, List.cons_append, readPlaces, ih]
      rfl
    · rw [body_char hc, if_neg hc, List.append_assoc, readPlaces_escape, ih]
      rfl

theorem matches_map_ofChar {endsLine : Char → Bool} (pattern : List Char) {text : List Char}
    (h : ∀ c ∈ text, endsLine c = false) :
    Matches endsLine (pattern.map Place.ofChar) text ↔ Text.Spells pattern text := by
  induction pattern generalizing text with
  | nil => rfl
  | cons c pattern ih =>
    rw [List.map_cons, Place.ofChar]
    by_cases hc : c = '*'
    · subst hc
      rw [if_pos rfl, Text.spells_star, Matches]
      refine exists_congr fun gap => exists_congr fun rest => and_congr_right fun heq => ?_
      subst heq
      rw [List.forall_mem_append] at h
      rw [ih h.2, and_iff_right h.1]
    · rw [if_neg hc, Text.spells_char hc, Matches]
      refine exists_congr fun rest => and_congr_right fun heq => ?_
      subst heq
      exact ih fun d hd => h d (List.mem_cons_of_mem _ hd)

/-- The expression of a pattern accepts what the pattern spells. -/
theorem accepts_regularExpression_iff {endsLine : Char → Bool} (pattern : List Char)
    {text : List Char} (h : ∀ c ∈ text, endsLine c = false) :
    Accepts endsLine (regularExpression pattern) text ↔ Text.Spells pattern text := by
  rw [Accepts, read_regularExpression]
  constructor
  · rintro ⟨places, hplaces, hmatches⟩
    obtain rfl := Option.some.inj hplaces
    exact (matches_map_ofChar pattern h).1 hmatches
  · exact fun hspells => ⟨_, rfl, (matches_map_ofChar pattern h).2 hspells⟩

end RegularExpression

/-! ## Both alike -/

/-- The condition that the property of a name matches an expression, as
the filter at an index puts it. -/
def Clause.matching (index : ℕ) (key expression : String) : Clause :=
  let name := parameter "key" index
  let bound := parameter "value" index
  ⟨s!"n[${name}] =~ ${bound}", [(name, .text key), (bound, .text expression)]⟩

namespace Value

theorem pattern?_text {pattern : String} (h : '*' ∈ pattern.toList) :
    (text pattern).pattern? = some pattern.toList := by
  rw [pattern?, if_pos (List.contains_iff_mem.2 h)]

theorem conditionText_pattern {pattern : String} (h : '*' ∈ pattern.toList) (index : ℕ)
    (key expression : String) :
    Clause.conditionText index (text pattern) = (Clause.matching index key expression).text := by
  let name := Clause.parameter "key" index
  let bound := Clause.parameter "value" index
  have hrelation : "] =~ $" = "] " ++ "=~" ++ " $" := by decide
  rw [Clause.conditionText, pattern?_text h]
  show "n[$" ++ name ++ "] " ++ "=~" ++ " $" ++ bound = "n[$" ++ name ++ "] =~ $" ++ bound
  simp only [hrelation, String.append_assoc]

/-- A pattern makes its filter a match with the pattern's expression. -/
theorem ofFilter_pattern {pattern : String} (h : '*' ∈ pattern.toList) (index : ℕ)
    (key : String) :
    Clause.ofFilter index (key, text pattern) =
      Clause.matching index key (String.ofList (Clause.regularExpression pattern.toList)) := by
  let expression := String.ofList (Clause.regularExpression pattern.toList)
  have hbound : Clause.boundValue (text pattern) = text expression := by
    rw [Clause.boundValue, pattern?_text h]
  rw [Clause.ofFilter, hbound, conditionText_pattern h index key expression]
  rfl

theorem meets_pattern_iff {pattern s : String} (hstar : '*' ∈ pattern.toList)
    (hany : '?' ∉ pattern.toList) (hset : '[' ∉ pattern.toList) :
    (text s).meets (text pattern) = true ↔ Text.Spells pattern.toList s.toList := by
  have hmeets : (text s).meets (text pattern) = Text.matchesPattern pattern.toList s.toList := by
    unfold meets
    rw [pattern?_text hstar]
  rw [hmeets, Text.matchesPattern_eq_matchAll, Text.Wildcard.parse_eq_map hany hset,
    Text.Wildcard.matchAll_map_ofChar]

/-- **Both kinds of repository agree on stars.** A text that has no line
end meets a pattern exactly if the filter asks a database for a match
with an expression that accepts the text, and exactly if the text is made
of the pieces between the stars with anything in the gaps. What ends a
line makes no difference to that. -/
theorem meets_tfae {pattern s : String} (hstar : '*' ∈ pattern.toList)
    (hany : '?' ∉ pattern.toList) (hset : '[' ∉ pattern.toList) {endsLine : Char → Bool}
    (hline : ∀ c ∈ s.toList, endsLine c = false) (index : ℕ) (key : String) :
    [(text s).meets (text pattern) = true,
      ∃ expression, Clause.ofFilter index (key, text pattern) =
          Clause.matching index key expression ∧
        RegularExpression.Accepts endsLine expression.toList s.toList,
      ∃ gaps : List (List Char), gaps.length + 1 = (pattern.toList.splitOn '*').length ∧
        s.toList = Text.interleave (pattern.toList.splitOn '*') gaps].TFAE := by
  tfae_have 1 ↔ 3 := by
    rw [meets_pattern_iff hstar hany hset, Text.spells_iff_interleave]
  tfae_have 2 ↔ 3 := by
    rw [← Text.spells_iff_interleave, ofFilter_pattern hstar,
      ← RegularExpression.accepts_regularExpression_iff pattern.toList hline]
    constructor
    · rintro ⟨expression, heq, haccepts⟩
      have hvalues := congrArg Clause.parameters heq
      simp only [Clause.matching, List.cons.injEq, Prod.mk.injEq, text.injEq, true_and,
        and_true] at hvalues
      rwa [← hvalues, String.toList_ofList] at haccepts
    · intro haccepts
      exact ⟨_, rfl, by rwa [String.toList_ofList]⟩
  tfae_finish

/-- Stars at both ends and next to each other, around a piece that means
something else in an expression. -/
theorem meets_tfae_adjacent :
    let pattern := "*a.b**"
    let s := "x.a.b^"
    let endsLine := fun c : Char => c = '\n' || c = '\r'
    '*' ∈ pattern.toList ∧ '?' ∉ pattern.toList ∧ '[' ∉ pattern.toList ∧
      (∀ c ∈ s.toList, endsLine c = false) ∧
      [(text s).meets (text pattern) = true,
        ∃ expression, Clause.ofFilter 0 ("name", text pattern) =
            Clause.matching 0 "name" expression ∧
          RegularExpression.Accepts endsLine expression.toList s.toList,
        ∃ gaps : List (List Char), gaps.length + 1 = (pattern.toList.splitOn '*').length ∧
          s.toList = Text.interleave (pattern.toList.splitOn '*') gaps].TFAE := by
  intro pattern s endsLine
  have hstar : '*' ∈ pattern.toList := by decide
  have hany : '?' ∉ pattern.toList := by decide
  have hset : '[' ∉ pattern.toList := by decide
  have hall : s.toList.all (fun c => !endsLine c) = true := by decide
  have hline : ∀ c ∈ s.toList, endsLine c = false := fun c hc =>
    (Bool.not_eq_true' _).mp (List.all_eq_true.1 hall c hc)
  exact ⟨hstar, hany, hset, hline, meets_tfae hstar hany hset hline 0 "name"⟩

end Value

end KnowledgeGraph
