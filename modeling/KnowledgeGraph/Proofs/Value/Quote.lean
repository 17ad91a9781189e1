import KnowledgeGraph.Value.Canonical
import Mathlib.Algebra.Group.Nat.Defs
/-!
# Quoted text ends where it ends

In what a text is quoted as, every character is one printable character
or begins with a backslash, and no two characters begin alike
(`escapeChar_append_inj`). So a quoted text can be told from whatever
follows it, and its characters from one another
(`quote_append_inj`).

Characters beyond the first `0x10000` are two code units. That no such
pair is mistaken for two characters is because the first unit of a pair
is the number of no character.
-/

namespace KnowledgeGraph

namespace Text

theorem digitChar_inj {m n : ℕ} (hm : m < 16) (hn : n < 16)
    (h : Nat.digitChar m = Nat.digitChar n) : m = n :=
  (by decide : ∀ m < 16, ∀ n < 16, Nat.digitChar m = Nat.digitChar n → m = n) m hm n hn h

/-- So many hexadecimal digits tell numbers of that length apart. -/
theorem hexadecimal_inj {width m n : ℕ} (hm : m < 16 ^ width) (hn : n < 16 ^ width)
    (h : hexadecimal width m = hexadecimal width n) : m = n := by
  have key : ∀ width m n, hexadecimal width m = hexadecimal width n →
      m % 16 ^ width = n % 16 ^ width := by
    intro width
    induction width with
    | zero => intro m n _; simp [Nat.mod_one]
    | succ width ih =>
      intro m n h
      rw [hexadecimal, hexadecimal, List.cons.injEq, Nat.pow_eq] at h
      have hdigit := digitChar_inj (Nat.mod_lt _ (by decide)) (Nat.mod_lt _ (by decide)) h.1
      rw [Nat.pow_succ, Nat.mod_mul, Nat.mod_mul, ih m n h.2, hdigit]
  rw [← Nat.mod_eq_of_lt hm, ← Nat.mod_eq_of_lt hn, key width m n h]

end Text

namespace Canonical

/-! ## One character -/

theorem escapeUnit_append_inj {m n : ℕ} {rest rest' : List Char} (hm : m < 0x10000)
    (hn : n < 0x10000) (h : escapeUnit m ++ rest = escapeUnit n ++ rest') :
    m = n ∧ rest = rest' := by
  simp only [escapeUnit, List.cons_append, List.cons.injEq, true_and] at h
  obtain ⟨hdigits, hrest⟩ := List.append_inj h (by simp)
  exact ⟨Text.hexadecimal_inj hm hn hdigits, hrest⟩

/-- The character that a backslash and a letter stand for. -/
def shorthand (letter : Char) : Char :=
  if letter = 'n' then '\n' else if letter = 'r' then '\r' else if letter = 't' then '\t'
  else if letter = 'f' then '\x0c' else if letter = 'b' then '\x08' else letter

/-- The four ways a character is written: as it is, as a backslash and a
letter, as one code unit, or as two. -/
theorem escapeChar_cases (c : Char) :
    (escapeChar c = [c] ∧ c ≠ '"' ∧ c ≠ '\\') ∨
      (∃ letter, escapeChar c = ['\\', letter] ∧ letter ≠ 'u' ∧ shorthand letter = c) ∨
      (escapeChar c = escapeUnit c.toNat ∧ c.toNat < 0x10000) ∨
      (escapeChar c = escapeUnit (0xD800 + (c.toNat - 0x10000) / 0x400) ++
        escapeUnit (0xDC00 + (c.toNat - 0x10000) % 0x400) ∧ 0x10000 ≤ c.toNat) := by
  unfold escapeChar
  split
  · next hc =>
    rw [Bool.or_eq_true, decide_eq_true_eq, decide_eq_true_eq] at hc
    refine Or.inr (Or.inl ⟨c, rfl, ?_⟩)
    rcases hc with rfl | rfl <;> decide
  next hplain =>
  rw [Bool.or_eq_true, decide_eq_true_eq, decide_eq_true_eq, not_or] at hplain
  split
  · next hc => exact Or.inr (Or.inl ⟨'n', rfl, by decide, hc.symm⟩)
  split
  · next hc => exact Or.inr (Or.inl ⟨'r', rfl, by decide, hc.symm⟩)
  split
  · next hc => exact Or.inr (Or.inl ⟨'t', rfl, by decide, hc.symm⟩)
  split
  · next hc => exact Or.inr (Or.inl ⟨'f', rfl, by decide, hc.symm⟩)
  split
  · next hc => exact Or.inr (Or.inl ⟨'b', rfl, by decide, hc.symm⟩)
  split
  · exact Or.inl ⟨rfl, hplain⟩
  split
  · next hunit => exact Or.inr (Or.inr (Or.inl ⟨rfl, hunit⟩))
  · next hunit => exact Or.inr (Or.inr (Or.inr ⟨rfl, Nat.le_of_not_lt hunit⟩))

/-- Both units of a pair are code units, and the first has ten bits of
the character. -/
theorem pair_lt (c : Char) : (c.toNat - 0x10000) / 0x400 < 0x400 ∧
    0xD800 + (c.toNat - 0x10000) / 0x400 < 0x10000 ∧
    0xDC00 + (c.toNat - 0x10000) % 0x400 < 0x10000 := by
  have hvalid : c.toNat < 0xD800 ∨ 0xDFFF < c.toNat ∧ c.toNat < 0x110000 := c.valid
  omega

/-- No character is the first unit of a pair. -/
theorem toNat_ne_firstUnit (c : Char) {k : ℕ} (h : k < 0x400) : c.toNat ≠ 0xD800 + k := by
  intro heq
  have hvalid : c.toNat < 0xD800 ∨ 0xDFFF < c.toNat ∧ c.toNat < 0x110000 := c.valid
  omega

/-- **No two characters begin alike.** -/
theorem escapeChar_append_inj {c d : Char} {rest rest' : List Char}
    (h : escapeChar c ++ rest = escapeChar d ++ rest') : c = d ∧ rest = rest' := by
  rcases escapeChar_cases c with ⟨hc, -, hslash⟩ | ⟨l, hc, hl, rfl⟩ | ⟨hc, hcunit⟩ | ⟨hc, hcpair⟩ <;>
    rcases escapeChar_cases d with ⟨hd, -, hslash'⟩ | ⟨m, hd, hm, rfl⟩ | ⟨hd, hdunit⟩ | ⟨hd, hdpair⟩ <;>
    rw [hc, hd] at h
  · exact List.cons.inj h
  -- a character as it is against a backslash
  · exact absurd (List.cons.inj h).1 hslash
  · exact absurd (List.cons.inj h).1 hslash
  · exact absurd (List.cons.inj h).1 hslash
  · exact absurd (List.cons.inj h).1.symm hslash'
  · obtain ⟨rfl, hrest⟩ := List.cons.inj (List.cons.inj h).2
    exact ⟨rfl, hrest⟩
  -- a letter against the `u` of a code unit
  · exact absurd (List.cons.inj (List.cons.inj h).2).1 hl
  · exact absurd (List.cons.inj (List.cons.inj h).2).1 hl
  · exact absurd (List.cons.inj h).1.symm hslash'
  · exact absurd (List.cons.inj (List.cons.inj h).2).1.symm hm
  · obtain ⟨hunit, hrest⟩ := escapeUnit_append_inj hcunit hdunit h
    exact ⟨Char.toNat_inj.1 hunit, hrest⟩
  -- one code unit against two
  · have hsecond := pair_lt d
    rw [List.append_assoc] at h
    exact absurd (escapeUnit_append_inj hcunit hsecond.2.1 h).1 (toNat_ne_firstUnit c hsecond.1)
  · exact absurd (List.cons.inj h).1.symm hslash'
  · exact absurd (List.cons.inj (List.cons.inj h).2).1.symm hm
  · have hfirst := pair_lt c
    rw [List.append_assoc] at h
    exact absurd (escapeUnit_append_inj hfirst.2.1 hdunit h).1.symm (toNat_ne_firstUnit d hfirst.1)
  · have hfirst := pair_lt c
    have hsecond := pair_lt d
    rw [List.append_assoc, List.append_assoc] at h
    obtain ⟨hhigh, hmore⟩ := escapeUnit_append_inj hfirst.2.1 hsecond.2.1 h
    obtain ⟨hlow, hrest⟩ := escapeUnit_append_inj hfirst.2.2 hsecond.2.2 hmore
    exact ⟨Char.toNat_inj.1 (by omega), hrest⟩

/-- A quoted text has no quotation mark before its end. -/
theorem head_escapeChar (c : Char) : ∃ first more, escapeChar c = first :: more ∧ first ≠ '"' := by
  rcases escapeChar_cases c with ⟨hc, hquote, -⟩ | ⟨l, hc, -⟩ | ⟨hc, -⟩ | ⟨hc, -⟩
  · exact ⟨c, [], hc, hquote⟩
  · exact ⟨'\\', [l], hc, by decide⟩
  · exact ⟨'\\', _, hc, by decide⟩
  · exact ⟨'\\', _, hc, by decide⟩

/-! ## A whole text -/

theorem flatMap_escapeChar_inj {s t rest rest' : List Char}
    (h : s.flatMap escapeChar ++ '"' :: rest = t.flatMap escapeChar ++ '"' :: rest') :
    s = t ∧ rest = rest' := by
  induction s generalizing t with
  | nil =>
    cases t with
    | nil => exact ⟨rfl, (List.cons.inj h).2⟩
    | cons d t =>
      obtain ⟨first, more, hd, hfirst⟩ := head_escapeChar d
      rw [List.flatMap_cons, hd] at h
      exact absurd (List.cons.inj h).1.symm hfirst
  | cons c s ih =>
    cases t with
    | nil =>
      obtain ⟨first, more, hc, hfirst⟩ := head_escapeChar c
      rw [List.flatMap_cons, hc] at h
      exact absurd (List.cons.inj h).1 hfirst
    | cons d t =>
      rw [List.flatMap_cons, List.flatMap_cons, List.append_assoc, List.append_assoc] at h
      obtain ⟨rfl, hmore⟩ := escapeChar_append_inj h
      obtain ⟨rfl, hrest⟩ := ih hmore
      exact ⟨rfl, hrest⟩

/-- **A quoted text and what follows it can be told apart.** -/
theorem quote_append_inj {s t : String} {rest rest' : List Char}
    (h : quote s ++ rest = quote t ++ rest') : s = t ∧ rest = rest' := by
  simp only [quote, List.cons_append, List.append_assoc, List.cons.injEq, true_and,
    List.nil_append] at h
  obtain ⟨hchars, hrest⟩ := flatMap_escapeChar_inj h
  exact ⟨String.toList_inj.1 hchars, hrest⟩

end Canonical

end KnowledgeGraph
