/-!
# The words of a property key

Keys are written in snake case, kebab case or camel case. A word is a
run of capitals, a run of small letters with at most one capital in
front, or a run of digits; everything else separates. The last capital
of a run belongs to the small letters that follow it, so `IDNumber` is
`ID` and `Number`, and `userID` is `user` and `ID`.
-/

namespace KnowledgeGraph.Text

/-- The word a scan is inside of, its letters in reverse. -/
inductive OpenWord where
  | none
  | capitals (letters : List Char)
  | small (letters : List Char)
  | digits (letters : List Char)

namespace OpenWord

/-- The finished word, if there is one. -/
def close : OpenWord → List (List Char)
  | none => []
  | capitals letters | small letters | digits letters => [letters.reverse]

/-- The word that a character begins. -/
def start (c : Char) : OpenWord :=
  if c.isUpper then capitals [c]
  else if c.isLower then small [c]
  else if c.isDigit then digits [c]
  else none

/-- One more character: the words it finishes, and the word it stands
in. A small letter takes the capital before it along. -/
def step (word : OpenWord) (c : Char) : List (List Char) × OpenWord :=
  match word with
  | capitals [last] => if c.isLower then ([], small [c, last]) else
      if c.isUpper then ([], capitals [c, last]) else (word.close, start c)
  | capitals (last :: rest) => if c.isLower then ([rest.reverse], small [c, last]) else
      if c.isUpper then ([], capitals (c :: last :: rest)) else (word.close, start c)
  | small letters => if c.isLower then ([], small (c :: letters)) else (word.close, start c)
  | digits letters => if c.isDigit then ([], digits (c :: letters)) else (word.close, start c)
  | _ => (word.close, start c)

/-- The words from here to the end. -/
def scan (word : OpenWord) : List Char → List (List Char)
  | [] => word.close
  | c :: rest => (word.step c).1 ++ (word.step c).2.scan rest

end OpenWord

/-- The words of a key, left to right. -/
def keyWords (key : List Char) : List (List Char) := OpenWord.none.scan key

end KnowledgeGraph.Text
