/-!
# Runs of characters

A class of characters as the lengths of its runs: how many code points in
a row are not in the class, then how many are, and so on by turns from the
first code point.
-/

namespace KnowledgeGraph.Text

/-- Whether a place lies in the class, when runs alternate and the first
of them is in the class or not. Behind the last run nothing is. -/
def isInRuns (inside : Bool) (place : Nat) : List Nat → Bool
  | [] => false
  | length :: rest =>
    if place < length then inside else isInRuns (!inside) (place - length) rest

end KnowledgeGraph.Text
