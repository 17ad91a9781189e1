import KnowledgeGraph.Plan.Selectivity
/-!
# Keys cut into words

A key is scanned for its words from left to right, and a capital may have
to be given back when a small letter follows. The words can as well be told
by where a key is cut (`cutAfter`), which for each place is a matter of the
character before it and the two behind it: they are the parts between the
cuts that hold letters and digits (`keyWords_eq_cutWords`). What a scan has
open at any time is cut nowhere, and so is every word that it finishes
(`Whole`). So a key is one of an identifier exactly if a part of it says so
(`FilterClass.hasIdWord_iff`).
-/

namespace KnowledgeGraph

namespace Text

/-! ## Cuts -/

/-- Whether a key is cut between a character and those behind it. -/
def cutAfter (c : Char) : List Char → Bool
  | [] => true
  | d :: rest =>
    -- at what is no letter and no digit
    !c.isAlphanum || !d.isAlphanum ||
    -- between a letter and a digit
    (c.isAlpha && d.isDigit) || (c.isDigit && d.isAlpha) ||
    -- between a small letter and a capital
    (c.isLower && d.isUpper) ||
    -- between two capitals, if a small letter follows
    (c.isUpper && d.isUpper && rest.head?.any Char.isLower)

/-- The parts of a key between its cuts. -/
def pieces : List Char → List (List Char)
  | [] => []
  | c :: rest =>
    if cutAfter c rest then [c] :: pieces rest
    else
      match pieces rest with
      | [] => [[c]]
      | piece :: others => (c :: piece) :: others

/-- The parts that hold letters and digits. -/
def cutWords (key : List Char) : List (List Char) :=
  (pieces key).filter fun piece => piece.all Char.isAlphanum

/-- Whether a part of a key is cut off from the rest and nowhere else. -/
inductive Whole : List Char → List Char → Prop where
  | last {c : Char} {rest : List Char} : cutAfter c rest = true → Whole [c] rest
  | cons {c d : Char} {u rest : List Char} :
      cutAfter c (d :: u ++ rest) = false → Whole (d :: u) rest → Whole (c :: d :: u) rest

variable {c d : Char} {u rest : List Char}

/-! ## Letters and digits -/

theorem isUpper_iff : c.isUpper = true ↔ 65 ≤ c.toNat ∧ c.toNat ≤ 90 := by
  delta Char.isUpper
  simp only [decide_eq_true_eq, ge_iff_le, UInt32.le_iff_toNat_le]
  exact Iff.rfl

theorem isLower_iff : c.isLower = true ↔ 97 ≤ c.toNat ∧ c.toNat ≤ 122 := by
  delta Char.isLower
  simp only [Bool.and_eq_true, decide_eq_true_eq, ge_iff_le, UInt32.le_iff_toNat_le]
  exact Iff.rfl

theorem isDigit_iff : c.isDigit = true ↔ 48 ≤ c.toNat ∧ c.toNat ≤ 57 := by
  delta Char.isDigit
  simp only [Bool.and_eq_true, decide_eq_true_eq, ge_iff_le, UInt32.le_iff_toNat_le]
  exact Iff.rfl

theorem isAlpha_eq (c : Char) : c.isAlpha = (c.isUpper || c.isLower) := rfl

theorem isAlphanum_eq (c : Char) : c.isAlphanum = (c.isUpper || c.isLower || c.isDigit) := rfl

/-- A capital is no small letter and no digit. -/
theorem of_isUpper (h : c.isUpper = true) : c.isLower = false ∧ c.isDigit = false := by
  rw [isUpper_iff] at h
  rw [Bool.eq_false_iff, Bool.eq_false_iff, Ne, Ne, isLower_iff, isDigit_iff]
  omega

/-- A small letter is no capital and no digit. -/
theorem of_isLower (h : c.isLower = true) : c.isUpper = false ∧ c.isDigit = false := by
  rw [isLower_iff] at h
  rw [Bool.eq_false_iff, Bool.eq_false_iff, Ne, Ne, isUpper_iff, isDigit_iff]
  omega

/-- A digit is no letter. -/
theorem of_isDigit (h : c.isDigit = true) : c.isUpper = false ∧ c.isLower = false := by
  rw [isDigit_iff] at h
  rw [Bool.eq_false_iff, Bool.eq_false_iff, Ne, Ne, isUpper_iff, isLower_iff]
  omega

/-! ## What is cut nowhere -/

namespace Whole

/-- **A whole part is one of the pieces.** -/
theorem pieces_append (h : Whole u rest) : pieces (u ++ rest) = u :: pieces rest := by
  induction h with
  | last hcut => rw [List.singleton_append, pieces, if_pos hcut]
  | cons hcut _ ih =>
    rw [List.cons_append, pieces, hcut, if_neg Bool.false_ne_true, ih]

theorem cutWords_append (h : Whole u rest) (hu : ∀ c ∈ u, c.isAlphanum = true) :
    cutWords (u ++ rest) = u :: cutWords rest := by
  have hkept : u.all Char.isAlphanum = true := List.all_eq_true.2 hu
  rw [cutWords, h.pieces_append, List.filter_cons, if_pos hkept]
  rfl

/-- Characters of one kind are whole, if nothing cuts between two of them
and something behind each. -/
theorem of_forall {p : Char → Bool} (hne : u ≠ []) (hu : ∀ c ∈ u, p c = true)
    (hinside : ∀ c d v, p c = true → p d = true → (∀ x ∈ v, p x = true) →
      cutAfter c (d :: v ++ rest) = false)
    (hend : ∀ c, p c = true → cutAfter c rest = true) : Whole u rest := by
  induction u with
  | nil => exact absurd rfl hne
  | cons c u ih =>
    rw [List.forall_mem_cons] at hu
    cases u with
    | nil => exact .last (hend c hu.1)
    | cons d u =>
      obtain ⟨hd, hrest⟩ := List.forall_mem_cons.1 hu.2
      exact .cons (hinside c d u hu.1 hd hrest) (ih (List.cons_ne_nil d u) hu.2)

/-- Digits up to what is none. -/
theorem of_digits (hne : u ≠ []) (hu : ∀ c ∈ u, c.isDigit = true)
    (hend : ∀ d ∈ rest.head?, d.isDigit = false) : Whole u rest := by
  refine of_forall hne hu (fun c d v hc hd _ => ?_) fun c hc => ?_
  · simp [cutAfter, isAlphanum_eq, isAlpha_eq, hc, hd, of_isDigit hc, of_isDigit hd]
  · cases rest with
    | nil => rfl
    | cons d rest =>
      have hd := hend d rfl
      simp only [cutAfter, isAlphanum_eq, isAlpha_eq, hc, hd]
      cases d.isUpper <;> cases d.isLower <;> simp

/-- Small letters up to what is none. -/
theorem of_small (hne : u ≠ []) (hu : ∀ c ∈ u, c.isLower = true)
    (hend : ∀ d ∈ rest.head?, d.isLower = false) : Whole u rest := by
  refine of_forall hne hu (fun c d v hc hd _ => ?_) fun c hc => ?_
  · simp [cutAfter, isAlphanum_eq, isAlpha_eq, hc, hd, of_isLower hc, of_isLower hd]
  · cases rest with
    | nil => rfl
    | cons d rest =>
      have hd := hend d rfl
      simp only [cutAfter, isAlphanum_eq, isAlpha_eq, hc, hd]
      cases d.isUpper <;> cases d.isDigit <;> simp

/-- A capital in front of small letters belongs to them. -/
theorem cons_small (h : Whole u rest) (hc : c.isUpper = true) (hne : u ≠ [])
    (hu : ∀ d ∈ u, d.isLower = true) : Whole (c :: u) rest := by
  cases u with
  | nil => exact absurd rfl hne
  | cons d u =>
    have hd := hu d List.mem_cons_self
    refine .cons ?_ h
    simp [cutAfter, isAlphanum_eq, isAlpha_eq, hc, hd, of_isUpper hc, of_isLower hd]

/-- Capitals that no small letter follows, up to where a key is cut. -/
theorem of_capitals (hne : u ≠ []) (hu : ∀ c ∈ u, c.isUpper = true)
    (hnext : ∀ d ∈ rest.head?, d.isLower = false)
    (hend : ∀ c, c.isUpper = true → cutAfter c rest = true) : Whole u rest := by
  refine of_forall hne hu (fun c d v hc hd hv => ?_) hend
  have hbehind : (v ++ rest).head?.any Char.isLower = false := by
    cases v with
    | nil => exact (Option.any_eq_false_iff_get _ _).2 fun h => hnext _ (Option.get_mem h)
    | cons x v => exact (of_isUpper (hv x List.mem_cons_self)).1
  rw [List.cons_append, cutAfter, hbehind]
  simp [isAlphanum_eq, isAlpha_eq, hc, hd, of_isUpper hc, of_isUpper hd]

end Whole

/-- What is no letter and no digit is left out. -/
theorem cutWords_cons_of_not_isAlphanum (h : c.isAlphanum = false) (rest : List Char) :
    cutWords (c :: rest) = cutWords rest := by
  have hcut : cutAfter c rest = true := by
    cases rest with
    | nil => rfl
    | cons d rest => simp [cutAfter, h]
  rw [cutWords, pieces, if_pos hcut, List.filter_cons_of_neg (by simp [h])]
  rfl

/-! ## What a scan has open -/

namespace OpenWord

/-- The letters of an open word, from the first to the last. -/
def letters : OpenWord → List Char
  | none => []
  | capitals letters | small letters | digits letters => letters.reverse

/-- Whether the letters of an open word are of its kind. -/
def Sound : OpenWord → Prop
  | none => True
  | capitals letters => letters ≠ [] ∧ ∀ c ∈ letters, c.isUpper = true
  | small letters => ∃ (smalls : List Char) (capital? : Option Char),
      letters = smalls ++ capital?.toList ∧ smalls ≠ [] ∧
        (∀ c ∈ smalls, c.isLower = true) ∧ ∀ c ∈ capital?, c.isUpper = true
  | digits letters => letters ≠ [] ∧ ∀ c ∈ letters, c.isDigit = true

/-- Whether an open word ends before what follows. -/
def Ends : OpenWord → List Char → Prop
  | none, _ => True
  | capitals _, rest => ∀ d ∈ rest.head?, d.isUpper = false ∧ d.isLower = false
  | small _, rest => ∀ d ∈ rest.head?, d.isLower = false
  | digits _, rest => ∀ d ∈ rest.head?, d.isDigit = false

variable {word : OpenWord}

/-- **A word that ends is one of the parts.** -/
theorem Sound.cutWords_append (h : word.Sound) (hend : word.Ends rest) :
    cutWords (word.letters ++ rest) = word.close ++ cutWords rest := by
  cases word with
  | none => rfl
  | capitals ls =>
    obtain ⟨hne, hls⟩ := h
    rw [letters, close]
    refine (Whole.of_capitals (by simpa using hne) (by simpa using hls)
      (fun d hd => (hend d hd).2) fun c hc => ?_).cutWords_append ?_
    · cases rest with
      | nil => rfl
      | cons d rest => simp [cutAfter, isAlphanum_eq, isAlpha_eq, hc, hend d rfl]
    · intro c hc
      simp [isAlphanum_eq, hls c (List.mem_reverse.1 hc)]
  | small ls =>
    obtain ⟨smalls, capital?, rfl, hne, hsmalls, hcapital⟩ := h
    have hwhole : Whole smalls.reverse rest :=
      .of_small (by simpa using hne) (by simpa using hsmalls) hend
    rw [letters, close, List.reverse_append]
    cases capital? with
    | none =>
      refine hwhole.cutWords_append fun c hc => ?_
      simp [isAlphanum_eq, hsmalls c (List.mem_reverse.1 hc)]
    | some capital =>
      have hc := hcapital capital rfl
      refine (hwhole.cons_small hc (by simpa using hne) (by simpa using hsmalls)).cutWords_append ?_
      rw [List.forall_mem_cons]
      refine ⟨by simp [isAlphanum_eq, hc], fun c hc => ?_⟩
      simp [isAlphanum_eq, hsmalls c (List.mem_reverse.1 hc)]
  | digits ls =>
    obtain ⟨hne, hls⟩ := h
    rw [letters, close]
    refine (Whole.of_digits (by simpa using hne) (by simpa using hls) hend).cutWords_append ?_
    intro c hc
    simp [isAlphanum_eq, hls c (List.mem_reverse.1 hc)]

/-- A word that begins is open with what it begins with. -/
theorem sound_start (c : Char) : (start c).Sound := by
  unfold start
  split
  · exact ⟨List.cons_ne_nil _ _, by simpa⟩
  · split
    · exact ⟨[c], Option.none, rfl, List.cons_ne_nil _ _, by simpa, fun _ h => nomatch h⟩
    · split
      · exact ⟨List.cons_ne_nil _ _, by simpa⟩
      · trivial

/-- And so it has what was there, but for what is left out. -/
theorem cutWords_start (c : Char) (rest : List Char) :
    cutWords ((start c).letters ++ rest) = cutWords (c :: rest) := by
  unfold start
  split
  · rfl
  · split
    · rfl
    · split
      · rfl
      · rename_i hupper hlower hdigit
        refine (cutWords_cons_of_not_isAlphanum ?_ rest).symm
        rw [isAlphanum_eq, Bool.eq_false_iff.2 hupper, Bool.eq_false_iff.2 hlower,
          Bool.eq_false_iff.2 hdigit]
        rfl

/-- Behind capitals a small letter takes the last of them along. -/
theorem step_capitals (last : Char) (more : List Char) (c : Char) :
    step (capitals (last :: more)) c =
      if c.isLower then (if more = [] then [] else [more.reverse], small [c, last])
      else if c.isUpper then ([], capitals (c :: last :: more))
      else ((capitals (last :: more)).close, start c) := by
  cases more <;> rfl

/-- And before that one a key is cut. -/
theorem cutWords_capitals {last : Char} {more : List Char} (hlast : last.isUpper = true)
    (hmore : ∀ c ∈ more, c.isUpper = true) (hc : c.isLower = true) (rest : List Char) :
    cutWords ((capitals (last :: more)).letters ++ c :: rest) =
      (if more = [] then [] else [more.reverse]) ++ cutWords (last :: c :: rest) := by
  rw [letters, List.reverse_cons, List.append_assoc]
  split
  · rename_i hnone
    rw [hnone]
    rfl
  · rename_i hne
    refine (Whole.of_capitals (by simpa using hne) (by simpa using hmore) (fun d hd => ?_)
      fun d hd => ?_).cutWords_append fun d hd => ?_
    · exact Option.some.inj hd ▸ (of_isUpper hlast).1
    · simp [cutAfter, isAlphanum_eq, hd, hlast, hc]
    · simp [isAlphanum_eq, hmore d (List.mem_reverse.1 hd)]

/-- **A scan finds the words of what it has open and of what follows.** -/
theorem Sound.scan_eq (h : word.Sound) (rest : List Char) :
    word.scan rest = cutWords (word.letters ++ rest) := by
  induction rest generalizing word with
  | nil =>
    have hend : word.Ends [] := by cases word <;> simp [Ends]
    rw [scan, h.cutWords_append hend]
    exact (List.append_nil _).symm
  | cons c rest ih =>
    -- where a word ends before the character, the scan begins anew with it
    have hanew : word.Ends (c :: rest) →
        word.close ++ (start c).scan rest = cutWords (word.letters ++ c :: rest) := by
      intro hend
      rw [h.cutWords_append hend, ih (sound_start c), cutWords_start]
    have hmore : ∀ {ls : List Char}, (c :: ls).reverse ++ rest = ls.reverse ++ c :: rest := by simp
    rw [scan]
    cases word with
    | none => exact hanew trivial
    | capitals ls =>
      obtain ⟨last, more, rfl⟩ := List.exists_cons_of_ne_nil h.1
      rw [step_capitals]
      split
      · rename_i hc
        obtain ⟨hlast, hmore'⟩ := List.forall_mem_cons.1 h.2
        have hsound : (small [c, last]).Sound :=
          ⟨[c], some last, rfl, List.cons_ne_nil _ _, by simpa, by simpa⟩
        rw [ih hsound]
        exact (cutWords_capitals hlast hmore' hc rest).symm
      · split
        · rename_i hc
          have hsound : (capitals (c :: last :: more)).Sound :=
            ⟨List.cons_ne_nil _ _, List.forall_mem_cons.2 ⟨hc, h.2⟩⟩
          exact (ih hsound).trans (congrArg cutWords hmore)
        · rename_i hlower hupper
          exact hanew fun d hd => Option.some.inj hd ▸
            ⟨Bool.eq_false_iff.2 hupper, Bool.eq_false_iff.2 hlower⟩
    | small ls =>
      rw [step]
      split
      · rename_i hc
        obtain ⟨smalls, capital?, rfl, -, hsmalls, hcapital⟩ := h
        have hsound : (small (c :: (smalls ++ capital?.toList))).Sound :=
          ⟨c :: smalls, capital?, rfl, List.cons_ne_nil _ _,
            List.forall_mem_cons.2 ⟨hc, hsmalls⟩, hcapital⟩
        exact (ih hsound).trans (congrArg cutWords hmore)
      · rename_i hc
        exact hanew fun d hd => Option.some.inj hd ▸ Bool.eq_false_iff.2 hc
    | digits ls =>
      rw [step]
      split
      · rename_i hc
        have hsound : (digits (c :: ls)).Sound :=
          ⟨List.cons_ne_nil _ _, List.forall_mem_cons.2 ⟨hc, h.2⟩⟩
        exact (ih hsound).trans (congrArg cutWords hmore)
      · rename_i hc
        exact hanew fun d hd => Option.some.inj hd ▸ Bool.eq_false_iff.2 hc

end OpenWord

/-- **Scanned or cut, the words are the same.** -/
theorem keyWords_eq_cutWords (key : List Char) : keyWords key = cutWords key := by
  have hnone : OpenWord.none.Sound := trivial
  exact hnone.scan_eq key

/-! ## Words in lower case -/

theorem smallLetters_of_isAlphanum (h : c.isAlphanum = true) (before rest : List Char) :
    smallLetters before c rest = [c.toLower] := by
  have hascii : c.toNat < 0x80 := by
    rw [isAlphanum_eq, Bool.or_eq_true, Bool.or_eq_true, isUpper_iff, isLower_iff, isDigit_iff] at h
    omega
  have hne : ∀ d : Char, 0x80 ≤ d.toNat → c ≠ d := by
    rintro d hd rfl
    omega
  rw [smallLetters, if_neg (hne _ (by decide)), if_neg, lowerChar, if_pos hascii]
  simp [hne '\u03A3' (by decide)]

/-- Letters and digits have their small forms one by one. -/
theorem lower_of_isAlphanum {word : List Char} (h : ∀ c ∈ word, c.isAlphanum = true) :
    lower word = word.map Char.toLower := by
  suffices ∀ before, lowerAfter before word = word.map Char.toLower from this []
  induction word with
  | nil => exact fun _ => rfl
  | cons c word ih =>
    intro before
    rw [List.forall_mem_cons] at h
    rw [lowerAfter, smallLetters_of_isAlphanum h.1, ih h.2]
    rfl

end Text

/-- **A key is one of an identifier if one of its words is `id`**, in
whatever case. The words are the parts of letters and digits between its
cuts: at every other character, between letters and digits, before a
capital behind a small letter, and before the last of several capitals if a
small letter follows. -/
theorem FilterClass.hasIdWord_iff (key : String) : hasIdWord key = true ↔
    ∃ word ∈ Text.cutWords key.toList, word.map Char.toLower = ['i', 'd'] := by
  rw [hasIdWord, Text.keyWords_eq_cutWords, List.any_eq_true]
  refine exists_congr fun word => and_congr_right fun hword => ?_
  have hchars : ∀ c ∈ word, c.isAlphanum = true := List.all_eq_true.1 (List.mem_filter.1 hword).2
  rw [decide_eq_true_eq, Text.lower_of_isAlphanum hchars]

/-- Capitals that end or do not, digits and marks. -/
example : ["userIDs", "IDNumber", "XYid", "id1", "x_Id-2", "widID", "idea"].map
    FilterClass.hasIdWord = [false, true, false, true, true, true, false] := by decide +kernel

end KnowledgeGraph
