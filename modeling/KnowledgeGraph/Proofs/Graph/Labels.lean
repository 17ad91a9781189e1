import KnowledgeGraph.Graph.Relationship
import KnowledgeGraph.Proofs.Input.Reading
/-!
# What is let pass as a type

A type is to be a word: up to a hundred letters, digits and underscores of
ASCII (`TypeLabel.IsWord`). Three rules are to see to that, one after the
other, and no character outside ASCII and no blank slips through. But the
last rule looks at the end of a text and takes a newline there for the end
itself. So a word with one newline behind it is let pass as well
(`TypeLabel.defect?_eq_none_iff`), and that is all.

Whatever else a record holds, as long as it passes, its type alone decides
whether it is read, and a refusal is about the type alone
(`TypeLabel.decides_ofRecord`).
-/

namespace KnowledgeGraph

open Checked

namespace TypeLabel

/-- A letter or a digit of ASCII, or an underscore. -/
def IsWordChar (c : Char) : Prop :=
  ('A' ≤ c ∧ c ≤ 'Z') ∨ ('a' ≤ c ∧ c ≤ 'z') ∨ ('0' ≤ c ∧ c ≤ '9') ∨ c = '_'

/-- A text as a type is to be. -/
structure IsWord (text : String) : Prop where
  pos : 1 ≤ text.length
  le : text.length ≤ 100
  chars : ∀ c ∈ text.toList, IsWordChar c

/-- A text as a type may be: a word, or a word and a newline, which counts
towards its length. -/
def IsAdmitted (text : String) : Prop :=
  IsWord text ∨ text.length ≤ 100 ∧ ∃ word, IsWord word ∧ text = word ++ "\n"

variable {text : String} {c : Char} {cs : List Char} {kind : RecordKind} {α : Type}

/-! ## Characters -/

theorem isLabelChar_iff (c : Char) : isLabelChar c = true ↔ IsWordChar c := by
  delta isLabelChar Char.isAlphanum Char.isAlpha Char.isUpper Char.isLower Char.isDigit
  simp only [Bool.or_eq_true, Bool.and_eq_true, decide_eq_true_eq, IsWordChar, ge_iff_le,
    Char.le_def, or_assoc]

/-- Between the last blank of ASCII and the first beyond it. -/
theorem toNat_bounds (h : IsWordChar c) : 0x20 < c.toNat ∧ c.toNat < 0x85 := by
  rcases h with h | h | h | rfl
  · have hrange : 65 ≤ c.toNat ∧ c.toNat ≤ 90 := h
    omega
  · have hrange : 97 ≤ c.toNat ∧ c.toNat ≤ 122 := h
    omega
  · have hrange : 48 ≤ c.toNat ∧ c.toNat ≤ 57 := h
    omega
  · decide

/-- A word holds no blanks. -/
theorem isBlank_eq_false (h : IsWordChar c) : Text.isBlank c = false := by
  obtain ⟨hlow, hhigh⟩ := toNat_bounds h
  simp only [Text.isBlank, Text.isWhiteSpace, Bool.or_eq_false_iff, Bool.and_eq_false_iff,
    decide_eq_false_iff_not]
  omega

/-- The characters behind the first are label characters again, unless
they are the newline alone. -/
theorem hasLabelChars_cons (c d : Char) (rest : List Char) :
    hasLabelChars (c :: d :: rest) =
      (isLabelChar c && (hasLabelChars (d :: rest) || (rest.isEmpty && d = '\n'))) := by
  cases rest with
  | nil => simp [hasLabelChars]
  | cons e rest => simp [hasLabelChars]

theorem hasLabelChars_word {word : List Char} (hne : word ≠ []) (h : ∀ c ∈ word, IsWordChar c) :
    hasLabelChars word = true ∧ hasLabelChars (word ++ ['\n']) = true := by
  induction word with
  | nil => exact absurd rfl hne
  | cons c rest ih =>
    rw [List.forall_mem_cons] at h
    have hc := (isLabelChar_iff c).2 h.1
    cases rest with
    | nil => exact ⟨by simpa [hasLabelChars] using hc, by simpa [hasLabelChars] using hc⟩
    | cons d rest =>
      obtain ⟨hword, hline⟩ := ih (List.cons_ne_nil d rest) h.2
      constructor
      · rw [hasLabelChars_cons, hc, hword]
        rfl
      · rw [List.cons_append, List.cons_append, hasLabelChars_cons, hc]
        rw [List.cons_append] at hline
        rw [hline]
        rfl

theorem exists_word_of_hasLabelChars (h : hasLabelChars cs = true) :
    ∃ word, word ≠ [] ∧ (∀ c ∈ word, IsWordChar c) ∧ (cs = word ∨ cs = word ++ ['\n']) := by
  induction cs with
  | nil => simp [hasLabelChars] at h
  | cons c rest ih =>
    cases rest with
    | nil =>
      have hc := (isLabelChar_iff c).1 h
      exact ⟨[c], by simp, by simpa using hc, Or.inl rfl⟩
    | cons d rest =>
      rw [hasLabelChars_cons, Bool.and_eq_true, Bool.or_eq_true, isLabelChar_iff] at h
      obtain ⟨hc, hrest | hline⟩ := h
      · obtain ⟨word, -, hword, hcs⟩ := ih hrest
        refine ⟨c :: word, by simp, List.forall_mem_cons.2 ⟨hc, hword⟩, ?_⟩
        exact hcs.imp (congrArg (List.cons c)) (congrArg (List.cons c))
      · rw [Bool.and_eq_true, List.isEmpty_iff, decide_eq_true_eq] at hline
        obtain ⟨rfl, rfl⟩ := hline
        exact ⟨[c], by simp, by simpa using hc, Or.inr rfl⟩

/-- **Label characters and perhaps a newline behind them.** -/
theorem hasLabelChars_iff (cs : List Char) : hasLabelChars cs = true ↔
    ∃ word, word ≠ [] ∧ (∀ c ∈ word, IsWordChar c) ∧ (cs = word ∨ cs = word ++ ['\n']) := by
  refine ⟨exists_word_of_hasLabelChars, ?_⟩
  rintro ⟨word, hne, hword, rfl | rfl⟩
  · exact (hasLabelChars_word hne hword).1
  · exact (hasLabelChars_word hne hword).2

/-! ## Texts -/

/-- The rules in one: a text has to hold something else than blanks and not
too much of it, and that has to be label characters. -/
theorem defect?_eq_none_iff_rules (text : String) : defect? text = none ↔
    ¬ text.toList.all Text.isBlank = true ∧ text.length ≤ 100 ∧
      hasLabelChars text.toList = true := by
  unfold defect?
  by_cases hblank : text.toList.all Text.isBlank = true
  · simp [hblank]
  · rw [if_neg hblank]
    by_cases hle : text.length ≤ 100
    · rw [if_neg (Nat.not_lt.2 hle)]
      by_cases hchars : hasLabelChars text.toList = true
      · simp [hblank, hle, hchars]
      · simp [hchars]
    · rw [if_pos (Nat.lt_of_not_le hle)]
      simp [hle]

/-- Characters of a word, few enough, are a word. -/
theorem isWord_ofList {word : List Char} (hne : word ≠ []) (hle : word.length ≤ 100)
    (h : ∀ c ∈ word, IsWordChar c) : IsWord (String.ofList word) where
  pos := by
    rw [String.length_ofList]
    exact List.length_pos_iff.2 hne
  le := by rwa [String.length_ofList]
  chars := by rwa [String.toList_ofList]

theorem IsWord.toList_ne_nil (h : IsWord text) : text.toList ≠ [] := by
  rw [← List.length_pos_iff, String.length_toList]
  exact h.pos

/-- A word is not all blanks, whatever stands behind it. -/
theorem IsWord.not_all_isBlank {word : String} (h : IsWord word) (rest : List Char) :
    ¬ (word.toList ++ rest).all Text.isBlank = true := by
  obtain ⟨c, hc⟩ := List.exists_mem_of_ne_nil _ h.toList_ne_nil
  intro hall
  have hblank := List.all_eq_true.1 hall c (List.mem_append_left rest hc)
  rw [isBlank_eq_false (h.chars c hc)] at hblank
  exact Bool.false_ne_true hblank

/-- **What is let pass as a label** is a word, or a word and a newline. -/
theorem defect?_eq_none_iff (text : String) : defect? text = none ↔ IsAdmitted text := by
  rw [defect?_eq_none_iff_rules, hasLabelChars_iff]
  constructor
  · rintro ⟨-, hle, word, hne, hword, htext⟩
    rw [← String.length_toList] at hle
    rcases htext with htext | htext
    · left
      have hofList : text = String.ofList word := by rw [← htext, String.ofList_toList]
      rw [htext] at hle
      exact hofList ▸ isWord_ofList hne hle hword
    · right
      have hofList : text = String.ofList word ++ "\n" := by
        rw [← String.toList_inj, htext, String.toList_append, String.toList_ofList]
        rfl
      rw [htext, List.length_append] at hle
      refine ⟨?_, String.ofList word, isWord_ofList hne (by omega) hword, hofList⟩
      rwa [← String.length_toList, htext, List.length_append]
  · rintro (hword | ⟨hle, word, hword, rfl⟩)
    · have hblank := hword.not_all_isBlank []
      rw [List.append_nil] at hblank
      exact ⟨hblank, hword.le, text.toList, hword.toList_ne_nil, hword.chars, Or.inl rfl⟩
    · rw [String.toList_append]
      exact ⟨hword.not_all_isBlank _, hle, word.toList, hword.toList_ne_nil, hword.chars, Or.inr rfl⟩

/-- A text that does not end in a newline may be a type exactly if it is to
be one. -/
theorem isAdmitted_iff_isWord (h : ∀ word, text ≠ word ++ "\n") : IsAdmitted text ↔ IsWord text :=
  ⟨fun hadmitted => hadmitted.resolve_right fun ⟨_, word, _, htext⟩ => h word htext, Or.inl⟩

/-! ## Records -/

/-- A label is taken as itself. -/
theorem check_text (kind : RecordKind) (label : TypeLabel) :
    check kind label.text = accept label := by
  unfold check
  split
  · rfl
  · next heq => rw [label.valid] at heq; cases heq

/-- A text that may be a type is taken as one. -/
theorem check_of_isAdmitted (kind : RecordKind) (h : IsAdmitted text) :
    ∃ label, check kind text = accept label :=
  ⟨⟨text, (defect?_eq_none_iff text).2 h⟩, check_text kind ⟨text, _⟩⟩

/-- And any other is refused for the first rule that it breaks. -/
theorem check_of_not_isAdmitted (kind : RecordKind) (h : ¬ IsAdmitted text) :
    ∃ defect, check kind text = refuse [⟨[], .broken (.label kind defect)⟩] := by
  unfold check
  split
  · next heq => exact absurd ((defect?_eq_none_iff text).1 heq) h
  · next defect _ => exact ⟨defect, rfl⟩

/-- Whether the type of a record decides if it is read: it is if the type
may be one, and else the type is the one thing wrong with it. -/
structure Decides (read : Record → Checked α) (record : Record) (text : String) : Prop where
  accepted : (∃ a, read record = accept a) ↔ IsAdmitted text
  refused : (¬ ∃ a, read record = accept a) → ∃ issue : Issue, read record = refuse [issue] ∧
    issue.path = [.field "type"] ∧ issue.defect.code = "value_error"

/-- Whether a record is read with some text in the place of its type, so
that all its other fields pass. -/
def OthersPass (read : Record → Checked α) (record : Record) : Prop :=
  ∃ (label : String) (a : α), read (("type", .value (.text label)) :: record) = accept a

/-- What is built of a type once all else is there is decided by the type. -/
theorem decides_of_eq {read : Record → Checked α} {record : Record} (kind : RecordKind)
    (build : TypeLabel → α)
    (h : read record = build <$> (check kind text).inside (.field "type")) :
    Decides read record text := by
  by_cases hadmitted : IsAdmitted text
  · obtain ⟨label, hlabel⟩ := check_of_isAdmitted kind hadmitted
    rw [hlabel, inside_accept, map_accept] at h
    exact ⟨iff_of_true ⟨_, h⟩ hadmitted, fun hnone => absurd ⟨_, h⟩ hnone⟩
  · obtain ⟨defect, hdefect⟩ := check_of_not_isAdmitted kind hadmitted
    rw [hdefect] at h
    refine ⟨iff_of_false (fun ⟨_, hread⟩ => refuse_ne_accept (h.symm.trans hread)) hadmitted,
      fun _ => ⟨_, h, rfl, rfl⟩⟩

/-- The type of an entity decides, if all else passes. -/
theorem decides_entity {record : Record} (hothers : OthersPass Entity.ofRecord record)
    (htype : record.lookup "type" = some (.value (.text text))) :
    Decides Entity.ofRecord record text := by
  obtain ⟨label, e, h⟩ := hothers
  rw [Entity.ofRecord] at h
  -- the other fields, from the last on
  obtain ⟨_, created, hrest, hcreated, -⟩ := seq_eq_accept_iff.1 h
  obtain ⟨_, properties, htyped, hproperties, -⟩ := seq_eq_accept_iff.1 hrest
  obtain ⟨_, _, hfirst, -, -⟩ := seq_eq_accept_iff.1 htyped
  obtain ⟨id, hid, -⟩ := map_eq_accept_iff.1 hfirst
  rw [Record.withDefault_cons_of_ne (by decide)] at hcreated hproperties
  rw [Record.required_cons_of_ne (by decide)] at hid
  refine decides_of_eq .entity (fun type => ⟨id, type, properties, created⟩) ?_
  rw [Entity.ofRecord, hid, hproperties, hcreated, Record.required_of_lookup htype, map_accept,
    accept_seq, seq_accept, seq_accept, map_map, map_map]
  rfl

/-- The type of a relationship decides, if all else passes. -/
theorem decides_relationship {record : Record} (hothers : OthersPass Relationship.ofRecord record)
    (htype : record.lookup "type" = some (.value (.text text))) :
    Decides Relationship.ofRecord record text := by
  obtain ⟨label, r, h⟩ := hothers
  rw [Relationship.ofRecord] at h
  obtain ⟨_, created, hweighed, hcreated, -⟩ := seq_eq_accept_iff.1 h
  obtain ⟨_, directed, hheld, hdirected, -⟩ := seq_eq_accept_iff.1 hweighed
  obtain ⟨_, weight, hended, hweight, -⟩ := seq_eq_accept_iff.1 hheld
  obtain ⟨_, properties, hbegun, hproperties, -⟩ := seq_eq_accept_iff.1 hended
  obtain ⟨_, target, hrest, htarget, -⟩ := seq_eq_accept_iff.1 hbegun
  obtain ⟨_, source, htyped, hsource, -⟩ := seq_eq_accept_iff.1 hrest
  obtain ⟨_, _, hfirst, -, -⟩ := seq_eq_accept_iff.1 htyped
  obtain ⟨id, hid, -⟩ := map_eq_accept_iff.1 hfirst
  rw [Record.withDefault_cons_of_ne (by decide)] at hcreated hdirected hweight hproperties
  rw [Record.required_cons_of_ne (by decide)] at htarget hsource hid
  refine decides_of_eq .relationship (fun type =>
    ⟨id, type, source, target, properties, weight.1, directed, created, weight.2⟩) ?_
  rw [Relationship.ofRecord, hid, hsource, htarget, hproperties, hweight, hdirected, hcreated,
    Record.required_of_lookup htype, map_accept, accept_seq]
  simp only [seq_accept, map_map]
  rfl

/-- **The type of a record decides**, of an entity as of a relationship: a
word is let pass, and so is a word with a newline behind it; any other text
is refused, and nothing but the type is reported. Where there is no newline
at the end, words alone are let pass. -/
theorem decides_ofRecord (text : String) :
    (∀ record : Record, record.lookup "type" = some (.value (.text text)) →
      (OthersPass Entity.ofRecord record → Decides Entity.ofRecord record text) ∧
        (OthersPass Relationship.ofRecord record → Decides Relationship.ofRecord record text)) ∧
      ((∀ word, text ≠ word ++ "\n") → (IsAdmitted text ↔ IsWord text)) :=
  ⟨fun _ htype => ⟨fun hothers => decides_entity hothers htype,
    fun hothers => decides_relationship hothers htype⟩, isAdmitted_iff_isWord⟩

/-- A type of the right length with a letter outside ASCII is refused. -/
theorem decides_ofRecord_accented :
    let record : Record := [("id", .value (.text "e1")), ("type", .value (.text "Café"))]
    record.lookup "type" = some (.value (.text "Café")) ∧ OthersPass Entity.ofRecord record ∧
      (∀ word, "Café" ≠ word ++ "\n") ∧ (IsAdmitted "Café" ↔ IsWord "Café") ∧
      Decides Entity.ofRecord record "Café" := by
  intro record
  have htype : record.lookup "type" = some (.value (.text "Café")) := rfl
  have hothers : OthersPass Entity.ofRecord record := ⟨"T", _, rfl⟩
  have hline : ∀ word, "Café" ≠ word ++ "\n" := fun word h => by
    have hlast := congrArg (fun text : String => text.toList.getLast?) h
    simp at hlast
  obtain ⟨hdecides, hwords⟩ := decides_ofRecord "Café"
  exact ⟨htype, hothers, hline, hwords hline, (hdecides record htype).1 hothers⟩

/-- **A newline slips through**: an entity may be of a type that is no
word. -/
theorem not_isWord_of_accepted :
    let record : Record := [("id", .value (.text "e1")), ("type", .value (.text "Person\n"))]
    OthersPass Entity.ofRecord record ∧ (∃ e, Entity.ofRecord record = accept e) ∧
      ¬ IsWord "Person\n" := by
  refine ⟨⟨"T", _, rfl⟩, ⟨_, rfl⟩, fun h => ?_⟩
  obtain ⟨hlow, -⟩ := toNat_bounds (h.chars '\n' (by decide))
  exact absurd hlow (by decide)

end TypeLabel

end KnowledgeGraph
