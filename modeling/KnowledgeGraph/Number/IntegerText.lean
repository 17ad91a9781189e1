import KnowledgeGraph.Number.Decimal
import KnowledgeGraph.Text.Blank
/-!
# Reading integers from text

A text that is an integer as it stands is read first: a minus sign or
none, and digits, with no zero in front of another. Any other text is
tidied once and read again. Tidying takes off white space around it, a
plus sign, zeros in front, a point with zeros behind it, and underscores
that stand alone inside.
-/

namespace KnowledgeGraph

/-- Why a text is not taken for an integer. -/
inductive IntegerDefect where
  | unreadable
  | oversized
deriving DecidableEq

namespace IntegerText

/-! ## Plain integers -/

/-- How many digits an integer may have. -/
def mostDigits : Nat := 4300

/-- An integer as it stands. Too many digits are noticed before anything
that follows them. -/
def readPlain (text : List Char) : Except IntegerDefect Int :=
  let (negative, magnitude) :=
    match text with
    | '-' :: rest => (true, rest)
    | _ => (false, text)
  let (digits, rest) := magnitude.span Char.isDigit
  -- a zero in front has to be the only digit
  if digits.head? = some '0' && 1 < digits.length then .error .unreadable
  else if mostDigits < digits.length then .error .oversized
  else if digits.isEmpty || !rest.isEmpty then .error .unreadable
  else .ok (Binary64.signed negative (ofDigits digits))

/-! ## Tidying -/

/-- A text without a plus sign in front; no other sign may follow it. -/
def dropPlus? : List Char → Option (List Char)
  | '+' :: '-' :: _ => none
  | '+' :: rest => some rest
  | text => some text

/-- A digit that a number may begin with. -/
def isLeadingDigit (c : Char) : Bool := '1' ≤ c && c ≤ '9'

/-- What follows zeros and underscores; a sign among them begins the
number anew. Of the zeros the last is kept if the number ends there or
at a point. -/
def afterZeros? (last : Char) : List Char → Option (List Char)
  | [] => some [last]
  | c :: rest =>
    if c = '0' || c = '_' then afterZeros? c rest
    else if isLeadingDigit c || c = '-' then some (c :: rest)
    else if c = '.' then some (last :: c :: rest)
    else none

/-- Digits without the zeros in front of them. -/
def dropZeros? : List Char → Option (List Char)
  | [] => none
  | c :: rest =>
    if c = '0' then afterZeros? c rest
    else if isLeadingDigit c then some (c :: rest)
    else none

/-- A number without the zeros between its sign and the rest. -/
def dropSignedZeros? : List Char → Option (List Char)
  | '-' :: rest => (dropZeros? rest).map ('-' :: ·)
  | text => dropZeros? text

/-- A number without a point that only zeros follow, at least one. -/
def dropZeroFraction (text : List Char) : List Char :=
  let (whole, fraction) := text.span (· ≠ '.')
  if 2 ≤ fraction.length && fraction.tail.all (· = '0') then whole else text

/-- Whether each underscore of a text stands alone between two other
characters. `atEdge` says that an underscore may not come first. -/
def hasInnerUnderscores (atEdge : Bool) : List Char → Bool
  | [] => !atEdge
  | c :: rest => if c = '_' then !atEdge && hasInnerUnderscores true rest
    else hasInnerUnderscores false rest

/-- A number without its underscores, if they stand where they may. -/
def dropUnderscores (text : List Char) : List Char :=
  if hasInnerUnderscores true text then text.filter (· ≠ '_') else text

/-- A text without what an integer may be written with besides its sign
and its digits. -/
def tidy? (text : List Char) : Option (List Char) :=
  ((dropPlus? (Text.trim Text.isWhiteSpace text)).bind dropSignedZeros?).map fun number =>
    dropUnderscores (dropZeroFraction number)

/-- The integer that a text names. Only a text that is oversized as it
stands is called so. -/
def read (text : List Char) : Except IntegerDefect Int :=
  match readPlain text with
  | .error .unreadable =>
    match (tidy? text).map readPlain with
    | some (.ok n) => .ok n
    | _ => .error .unreadable
  | outcome => outcome

end IntegerText

end KnowledgeGraph
