import KnowledgeGraph.Proofs.Number.Decimal
import KnowledgeGraph.Value.Canonical
import Mathlib.Data.List.TakeWhile
/-!
# A double's text reads back

Whichever form the shortest decimal is written in, positional or with a
power of ten, the reader finds a decimal of the same worth in it, and so
the same double (`read?_double`). Distinct doubles therefore have
distinct texts, both zeros included.
-/

namespace KnowledgeGraph

/-! ## Reading runs of digits -/

/-- Every character is a decimal digit. -/
def AllDigits (text : List Char) : Prop := ∀ c ∈ text, c.isDigit = true

theorem allDigits_digitsOf (n : ℕ) : AllDigits (digitsOf n) := fun _ => isDigit_of_mem_digitsOf

theorem AllDigits.append {s t : List Char} (hs : AllDigits s) (ht : AllDigits t) :
    AllDigits (s ++ t) := fun c h => (List.mem_append.1 h).elim (hs c) (ht c)

theorem allDigits_zeros (n : ℕ) : AllDigits (List.replicate n '0') := fun c h => by
  rw [List.eq_of_mem_replicate h]
  rfl

/-- What is all of one kind is cut off where another kind begins. -/
theorem span_append {p : Char → Bool} {run rest : List Char} (h : ∀ c ∈ run, p c = true)
    (hrest : ∀ c ∈ rest.head?, p c = false) : (run ++ rest).span p = (run, rest) := by
  have hstop : rest.takeWhile p = [] ∧ rest.dropWhile p = rest := by
    cases rest with
    | nil => simp
    | cons c rest => simp [hrest c rfl]
  rw [List.span_eq_takeWhile_dropWhile, List.takeWhile_append_of_pos h,
    List.dropWhile_append_of_pos h, hstop.1, hstop.2, List.append_nil]

namespace Decimal

/-- A sign before a digit is read as it was written. -/
theorem readSign_signText {c : Char} (hc : c.isDigit = true) (s : Bool) (rest : List Char) :
    readSign (signText s ++ c :: rest) = (s, c :: rest) := by
  cases s with
  | true => rfl
  | false =>
    show readSign (c :: rest) = _
    unfold readSign
    split
    · next heq =>
      cases heq
      cases hc
    · next heq =>
      cases heq
      cases hc
    · rfl

theorem readNat?_of_allDigits {digits : List Char} (h : AllDigits digits) (hne : digits ≠ []) :
    readNat? digits = some (ofDigits digits) := by
  have hall : digits.all Char.isDigit = true := List.all_eq_true.2 h
  cases digits with
  | nil => exact absurd rfl hne
  | cons c digits => simp [readNat?, hall]

theorem readNat?_padZeros (width n : ℕ) : readNat? (padZeros width (digitsOf n)) = some n := by
  have hall : AllDigits (padZeros width (digitsOf n)) :=
    (allDigits_zeros _).append (allDigits_digitsOf n)
  rw [readNat?_of_allDigits hall (List.append_ne_nil_of_right_ne_nil _ (digitsOf_ne_nil n)),
    padZeros, ofDigits_append, ofDigits_replicate_zero, ofDigits_digitsOf, Nat.zero_mul,
    Nat.zero_add]

/-- The power of ten as it is written reads back. -/
theorem readPower?_signed (n : ℤ) :
    readPower? ('e' :: (if n < 0 then '-' else '+') :: padZeros 2 (digitsOf n.natAbs)) =
      some n := by
  rcases lt_or_ge n 0 with h | h
  · rw [if_pos h]
    simp only [readPower?, readSign, readNat?_padZeros, decide_true, Bool.true_or, if_true,
      Option.map_some, Binary64.signed]
    congr 1
    omega
  · rw [if_neg (not_lt.2 h)]
    simp only [readPower?, readSign, readNat?_padZeros, decide_true, Bool.true_or, if_true,
      Option.map_some, Binary64.signed, Bool.false_eq_true, if_false]
    congr 1
    omega

/-- Digits with a point among them. -/
theorem read?_pointed {whole fraction rest : List Char} (hw : AllDigits whole)
    (hf : AllDigits fraction) (hne : whole ≠ []) (hrest : ∀ c ∈ rest.head?, c.isDigit = false) :
    read? (whole ++ '.' :: (fraction ++ rest)) =
      (readPower? rest).map fun power => ⟨ofDigits (whole ++ fraction), power - fraction.length⟩ := by
  unfold read?
  rw [span_append hw (by simp)]
  simp only [span_append hf hrest]
  simp [hne]

/-- Digits without a point. -/
theorem read?_unpointed {whole rest : List Char} (hw : AllDigits whole) (hne : whole ≠ [])
    (hrest : ∀ c ∈ rest.head?, c.isDigit = false ∧ c ≠ '.') :
    read? (whole ++ rest) = (readPower? rest).map fun power => ⟨ofDigits whole, power⟩ := by
  unfold read?
  rw [span_append hw fun c hc => (hrest c hc).1]
  dsimp only
  split
  · exact absurd rfl (hrest '.' rfl).2
  · simp [hne]

/-! ## The significant digits -/

theorem digitsOf_eq_significantDigits_append (n : ℕ) :
    ∃ z, digitsOf n = significantDigits n ++ List.replicate z '0' := by
  have hzero : ∀ c ∈ (digitsOf n).reverse.takeWhile (· = '0'), c = '0' := fun c hc => by
    simpa using List.mem_takeWhile_imp hc
  generalize htake : (digitsOf n).reverse.takeWhile (· = '0') = zeros at hzero
  refine ⟨zeros.length, ?_⟩
  rw [significantDigits, ← List.reverse_replicate, ← List.eq_replicate_of_mem hzero, ← htake,
    ← List.reverse_append, List.takeWhile_append_dropWhile, List.reverse_reverse]

theorem allDigits_significantDigits (n : ℕ) : AllDigits (significantDigits n) := by
  obtain ⟨z, hz⟩ := digitsOf_eq_significantDigits_append n
  exact fun c hc => allDigits_digitsOf n c (hz ▸ List.mem_append_left _ hc)

theorem significantDigits_ne_nil {n : ℕ} (h : n ≠ 0) : significantDigits n ≠ [] := by
  obtain ⟨z, hz⟩ := digitsOf_eq_significantDigits_append n
  intro hnil
  apply h
  rw [← ofDigits_digitsOf n, hz, hnil, List.nil_append, ofDigits_replicate_zero]

/-- A decimal is worth its significant digits with the point where it
stands. -/
theorem value_eq_significant (d : Decimal) :
    d.value = ofDigits (significantDigits d.coefficient) *
      10 ^ (d.point - (significantDigits d.coefficient).length) := by
  obtain ⟨z, hz⟩ := digitsOf_eq_significantDigits_append d.coefficient
  have hpoint : d.point - (significantDigits d.coefficient).length = z + d.exponent := by
    rw [point, hz, List.length_append, List.length_replicate]
    push_cast
    ring
  have hcoefficient : d.coefficient = ofDigits (significantDigits d.coefficient) * 10 ^ z := by
    conv_lhs => rw [← ofDigits_digitsOf d.coefficient, hz]
    rw [ofDigits_append, ofDigits_replicate_zero, List.length_replicate, Nat.add_zero]
  rw [hpoint, zpow_add₀ (by norm_num), zpow_natCast, ← mul_assoc, value]
  conv_lhs => rw [hcoefficient]
  push_cast
  rfl

/-! ## Reading a decimal's text -/

/-- In each of its three forms a positional text is digits around a
point, and these are worth the digits it was made from. -/
theorem positional_eq {digits : List Char} (h : AllDigits digits) (hne : digits ≠ []) (point : ℤ) :
    ∃ whole fraction, positional digits point = whole ++ '.' :: fraction ∧
      AllDigits whole ∧ AllDigits fraction ∧ whole ≠ [] ∧
      value ⟨ofDigits (whole ++ fraction), -fraction.length⟩ =
        ofDigits digits * 10 ^ (point - digits.length) := by
  unfold positional value
  split
  · next hpoint =>
    refine ⟨['0'], List.replicate (-point).toNat '0' ++ digits, by simp, allDigits_zeros 1,
      (allDigits_zeros _).append h, by simp, ?_⟩
    have hlead : ofDigits (['0'] ++ (List.replicate (-point).toNat '0' ++ digits)) =
        ofDigits digits := by
      rw [ofDigits_append, ofDigits_append, ofDigits_replicate_zero,
        show ofDigits ['0'] = 0 from rfl]
      omega
    rw [hlead, List.length_append, List.length_replicate]
    dsimp only
    congr 2
    omega
  · next hpoint =>
    split
    · next hlong =>
      refine ⟨digits ++ List.replicate (point.toNat - digits.length) '0', ['0'], by simp,
        h.append (allDigits_zeros _), allDigits_zeros 1, by simp [hne], ?_⟩
      have hexponent : point - digits.length = ((point.toNat - digits.length : ℕ) : ℤ) := by omega
      rw [ofDigits_append, ofDigits_append, ofDigits_replicate_zero, List.length_replicate,
        show ofDigits ['0'] = 0 from rfl, hexponent, zpow_natCast]
      push_cast
      simp [zpow_neg]
    · next hshort =>
      refine ⟨digits.take point.toNat, digits.drop point.toNat, rfl,
        fun c hc => h c (List.mem_of_mem_take hc), fun c hc => h c (List.mem_of_mem_drop hc), ?_, ?_⟩
      · rw [ne_eq, List.take_eq_nil_iff, not_or]
        exact ⟨by omega, hne⟩
      · rw [List.take_append_drop, List.length_drop]
        dsimp only
        congr 2
        omega

/-- A text with a power of ten is one digit or digits around a point,
and the power. -/
theorem scientific_eq {digits : List Char} (hne : digits ≠ []) (power : ℤ) :
    ∃ first fraction, digits = first :: fraction ∧
      scientific digits power =
        first :: ((if fraction = [] then [] else '.' :: fraction) ++
          'e' :: (if power < 0 then '-' else '+') :: padZeros 2 (digitsOf power.natAbs)) := by
  cases digits with
  | nil => exact absurd rfl hne
  | cons first rest =>
    refine ⟨first, rest, rfl, ?_⟩
    cases rest with
    | nil => rfl
    | cons second rest => simp [scientific]

theorem read?_positional {digits : List Char} (h : AllDigits digits) (hne : digits ≠ [])
    (point : ℤ) :
    ∃ e, read? (positional digits point) = some e ∧
      e.value = ofDigits digits * 10 ^ (point - digits.length) := by
  obtain ⟨whole, fraction, htext, hw, hf, hwhole, hvalue⟩ := positional_eq h hne point
  refine ⟨⟨ofDigits (whole ++ fraction), -fraction.length⟩, ?_, hvalue⟩
  have hread := @read?_pointed whole fraction [] hw hf hwhole (by simp)
  rw [List.append_nil] at hread
  rw [htext, hread, readPower?, Option.map_some, zero_sub]

theorem read?_scientific {digits : List Char} (h : AllDigits digits) (hne : digits ≠ [])
    (power : ℤ) :
    ∃ e, read? (scientific digits power) = some e ∧
      e.value = ofDigits digits * 10 ^ (power + 1 - digits.length) := by
  obtain ⟨first, fraction, rfl, htext⟩ := scientific_eq hne power
  have hfirst : AllDigits [first] := fun c hc => h c (by simp_all)
  have hfraction : AllDigits fraction := fun c hc => h c (List.mem_cons_of_mem _ hc)
  have hstop : ∀ c ∈ ('e' :: (if power < 0 then '-' else '+') ::
      padZeros 2 (digitsOf power.natAbs)).head?, c.isDigit = false ∧ c ≠ '.' := by simp
  refine ⟨⟨ofDigits (first :: fraction), power - fraction.length⟩, ?_, ?_⟩
  · rw [htext]
    split
    · next hnil =>
      subst hnil
      have hread := @read?_unpointed [first] _ hfirst (by simp) hstop
      rw [readPower?_signed] at hread
      simpa using hread
    · have hread := @read?_pointed [first] _ _ hfirst hfraction (by simp) fun c hc => (hstop c hc).1
      rw [readPower?_signed] at hread
      simpa using hread
  · rw [value, List.length_cons]
    congr 2
    push_cast
    omega

/-- **A decimal's text reads back**, up to how the decimal is written. -/
theorem read?_text {d : Decimal} (h : d.coefficient ≠ 0) :
    ∃ e, read? d.text = some e ∧ e.value = d.value := by
  have hdigits := allDigits_significantDigits d.coefficient
  have hne := significantDigits_ne_nil h
  rw [value_eq_significant d, text]
  split
  · exact read?_positional hdigits hne d.point
  · obtain ⟨e, hread, hvalue⟩ := read?_scientific hdigits hne (d.point - 1)
    rw [sub_add_cancel] at hvalue
    exact ⟨e, hread, hvalue⟩

/-- A decimal's text begins with a digit. -/
theorem head_text {d : Decimal} (h : d.coefficient ≠ 0) :
    ∃ c rest, d.text = c :: rest ∧ c.isDigit = true := by
  have hdigits := allDigits_significantDigits d.coefficient
  have hne := significantDigits_ne_nil h
  rw [text]
  split
  · obtain ⟨whole, fraction, htext, hw, -, hwhole, -⟩ := positional_eq hdigits hne d.point
    obtain ⟨c, more, rfl⟩ := List.exists_cons_of_ne_nil hwhole
    exact ⟨c, _, htext, hw c List.mem_cons_self⟩
  · obtain ⟨c, fraction, hsplit, htext⟩ := scientific_eq hne (d.point - 1)
    exact ⟨c, _, htext, hdigits c (hsplit ▸ List.mem_cons_self)⟩

/-- A decimal's text is digits, signs, a point and a letter `e`, and it
has the point or the letter. -/
theorem mem_text {d : Decimal} (h : d.coefficient ≠ 0) :
    (∀ c ∈ d.text, c.isDigit = true ∨ c ∈ ['.', 'e', '-', '+']) ∧ ('.' ∈ d.text ∨ 'e' ∈ d.text) := by
  have hdigits := allDigits_significantDigits d.coefficient
  have hne := significantDigits_ne_nil h
  rw [text]
  split
  · obtain ⟨whole, fraction, htext, hw, hf, -, -⟩ := positional_eq hdigits hne d.point
    rw [htext]
    refine ⟨fun c hc => ?_, Or.inl (by simp)⟩
    rw [List.mem_append, List.mem_cons] at hc
    rcases hc with hc | rfl | hc
    · exact Or.inl (hw c hc)
    · exact Or.inr (by simp)
    · exact Or.inl (hf c hc)
  · obtain ⟨first, fraction, hsplit, htext⟩ := scientific_eq hne (d.point - 1)
    rw [hsplit] at hdigits
    rw [htext]
    refine ⟨fun c hc => ?_, Or.inr (by simp)⟩
    have hpower : AllDigits (padZeros 2 (digitsOf (d.point - 1).natAbs)) :=
      (allDigits_zeros _).append (allDigits_digitsOf _)
    rw [List.mem_cons, List.mem_append, List.mem_cons, List.mem_cons] at hc
    rcases hc with rfl | hc | rfl | rfl | hc
    · exact Or.inl (hdigits c List.mem_cons_self)
    · split at hc
      · cases hc
      · rcases List.mem_cons.1 hc with rfl | hc
        · exact Or.inr (by simp)
        · exact Or.inl (hdigits c (List.mem_cons_of_mem _ hc))
    · exact Or.inr (by simp)
    · split <;> exact Or.inr (by simp)
    · exact Or.inl (hpower c hc)

end Decimal

/-! ## Reading a double's text -/

namespace Binary64

/-- A text that begins with a digit is no word and has no sign, so one
sign may stand before it. -/
theorem read?_signText {c : Char} (hc : c.isDigit = true) (s : Bool) (rest : List Char) :
    read? (signText s ++ c :: rest) = (Decimal.read? (c :: rest)).map (Decimal.toBinary64 s) := by
  have hlower : c.toLower = c := by
    rw [Char.isDigit_iff_toNat] at hc
    unfold Char.toLower
    split
    · next hupper =>
      rw [UInt32.le_iff_toNat_le] at hupper
      exact absurd (le_trans hupper.1 hc.2) (by decide)
    · rfl
  have hword : ∀ word : List Char, (word.head?.any Char.isDigit) = false →
      (c :: rest).map Char.toLower ≠ word := by
    rintro _ hfirst rfl
    simp [hlower, hc] at hfirst
  unfold read?
  rw [Decimal.readSign_signText hc]
  dsimp only
  rw [if_neg (not_or.2 ⟨hword "inf".toList rfl, hword "infinity".toList rfl⟩),
    if_neg (hword "nan".toList rfl)]

/-- **The canonical text of a double reads back**: finite or not, with
its sign. -/
theorem read?_double (x : Binary64) : read? (Canonical.double x) = some x := by
  cases x with
  | nan => decide
  | infinite s => cases s <;> decide
  | finite s u h =>
    show read? (text (.finite s u h)) = _
    rw [text]
    split
    · next hu =>
      subst hu
      have hzero : (Decimal.read? "0.0".toList).map (Decimal.toBinary64 s) =
        some (.finite s 0 h) := rfl
      rw [← hzero]
      exact read?_signText (c := '0') rfl s _
    · next hu =>
      have hcoefficient := Decimal.coefficient_shortest_ne_zero h hu
      obtain ⟨c, rest, htext, hc⟩ := Decimal.head_text hcoefficient
      obtain ⟨e, hread, hvalue⟩ := Decimal.read?_text hcoefficient
      rw [htext, read?_signText hc, ← htext, hread, Option.map_some,
        Decimal.toBinary64_congr s hvalue, Decimal.toBinary64_shortest h hu]

/-- **Distinct doubles have distinct texts.** -/
theorem double_injective : Function.Injective Canonical.double := fun x y h => by
  have hread := read?_double x
  rw [h, read?_double y] at hread
  exact (Option.some.inj hread).symm

end Binary64

/-! ## What a double's text is made of -/

namespace Canonical

/-- The characters of what is written without quotes or brackets. -/
def isBare (c : Char) : Bool := c.isAlphanum || c = '.' || c = '-' || c = '+'

/-- The characters of an integer. -/
def isIntegerChar (c : Char) : Bool := c.isDigit || c = '-'

theorem isBare_of_isDigit {c : Char} (h : c.isDigit = true) : isBare c = true := by
  simp [isBare, Char.isAlphanum, h]

theorem isBare_of_mem_double {x : Binary64} : ∀ c ∈ double x, isBare c = true := by
  cases x with
  | nan => exact List.all_eq_true.1 rfl
  | infinite s => cases s <;> exact List.all_eq_true.1 rfl
  | finite s u h =>
    show ∀ c ∈ Binary64.text (.finite s u h), isBare c = true
    intro c hc
    rw [Binary64.text, List.mem_append] at hc
    rcases hc with hc | hc
    · cases s with
      | false => cases hc
      | true => exact List.all_eq_true.1 (show ['-'].all isBare = true from rfl) c hc
    · split at hc
      · exact List.all_eq_true.1 (show "0.0".toList.all isBare = true from rfl) c hc
      · next hu =>
        rcases (Decimal.mem_text (Decimal.coefficient_shortest_ne_zero h hu)).1 c hc with hc | hc
        · exact isBare_of_isDigit hc
        · exact List.all_eq_true.1 (show ['.', 'e', '-', '+'].all isBare = true from rfl) c hc

/-- **Not all of a double's text is digits and minus signs.** -/
theorem all_isIntegerChar_double (x : Binary64) : (double x).all isIntegerChar = false := by
  cases x with
  | nan => rfl
  | infinite s => cases s <;> rfl
  | finite s u h =>
    show (Binary64.text (.finite s u h)).all isIntegerChar = false
    rw [Binary64.text, List.all_append, Bool.and_eq_false_iff]
    refine Or.inr ?_
    split
    · rfl
    · next hu =>
      rw [List.all_eq_false]
      rcases (Decimal.mem_text (Decimal.coefficient_shortest_ne_zero h hu)).2 with hc | hc
      · exact ⟨'.', hc, by decide⟩
      · exact ⟨'e', hc, by decide⟩

end Canonical

end KnowledgeGraph
