/-!
# Hexadecimal text
-/

namespace KnowledgeGraph.Text

/-- The last `width` hexadecimal digits of a number, in lower case. -/
def hexadecimal : Nat → Nat → List Char
  | 0, _ => []
  | width + 1, n => Nat.digitChar (n / Nat.pow 16 width % 16) :: hexadecimal width n

@[simp] theorem length_hexadecimal (width n : Nat) : (hexadecimal width n).length = width := by
  induction width with
  | zero => rfl
  | succ width ih => simp [hexadecimal, ih]

end KnowledgeGraph.Text
