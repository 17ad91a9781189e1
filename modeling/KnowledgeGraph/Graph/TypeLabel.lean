import KnowledgeGraph.Input.Checked
import KnowledgeGraph.Text.Blank
/-!
# Type labels

The type of an entity or a relationship is a short word of ASCII
letters, digits and underscores. A newline at its end is not held
against it, but counts towards its length. A label that breaks several
rules is refused for the first: blank, too long, wrong characters.
-/

namespace KnowledgeGraph

namespace TypeLabel

/-- A letter or digit in ASCII, or an underscore. -/
def isLabelChar (c : Char) : Bool := c.isAlphanum || c = '_'

/-- Label characters, at least one, and perhaps a newline after them. -/
def hasLabelChars : List Char → Bool
  | [] => false
  | [c] => isLabelChar c
  | [c, d] => isLabelChar c && (isLabelChar d || d = '\n')
  | c :: rest => isLabelChar c && hasLabelChars rest

/-- The first rule that a text breaks as a label. -/
def defect? (text : String) : Option LabelDefect :=
  if text.toList.all Text.isBlank then some .blank
  else if 100 < text.length then some .tooLong
  else if hasLabelChars text.toList then none
  else some .characters

end TypeLabel

/-- A text that breaks no rule of labels. -/
structure TypeLabel where
  text : String
  valid : TypeLabel.defect? text = none
deriving DecidableEq

/-- A text as the label of some kind of record. -/
def TypeLabel.check (kind : RecordKind) (text : String) : Checked TypeLabel :=
  match h : defect? text with
  | none => .accept ⟨text, h⟩
  | some d => .defect (.broken (.label kind d))

end KnowledgeGraph
