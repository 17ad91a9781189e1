import KnowledgeGraph.Input.Checked
import KnowledgeGraph.Input.Raw
import KnowledgeGraph.Number.IntegerText
import KnowledgeGraph.Number.Word
/-!
# Readers

A reader takes raw input for one kind of field, and takes it in every
form that names such a value without doubt: a number may be written as
text, a truth value as a word. `Record.required` and `Record.withDefault`
read a field by its name.
-/

namespace KnowledgeGraph

/-- How one kind of field is read. -/
abbrev Reader (α : Type) := Raw → Checked α

namespace Reader

open Checked

variable {α : Type}

/-! ## Plain kinds -/

def text : Reader String
  | .value (.text s) => accept s
  | _ => defect .notText

/-- A number: a double, an integer in its range, a truth value as one or
zero, or decimal text with white space around it. Underscores may stand
between the characters of a text. -/
def number : Reader Binary64
  | .value (.num x) => accept x
  | .value (.int n) => (Binary64.ofInt? n).elim (defect .notNumber) accept
  | .value (.bool b) => accept (if b then .one else .zero)
  | .value (.text s) =>
    match Binary64.read? (Text.trim Text.isWhiteSpace s.toList) with
    | some x => accept x
    | none => ((joinGroups? s.toList).bind Binary64.read?).elim (defect .unreadableNumber) accept
  | _ => defect .notNumber
where
  /-- a text without its single inner underscores -/
  joinGroups? (text : List Char) : Option (List Char) :=
    match text with
    | [] => some []
    | ['_'] => none
    | '_' :: _ => none
    | [c] => some [c]
    | c :: '_' :: d :: rest => if d = '_' then none else (joinGroups? (d :: rest)).map (c :: ·)
    | c :: rest => (joinGroups? rest).map (c :: ·)

/-- What keeps a text from being an integer. -/
def ofIntegerDefect : IntegerDefect → Defect
  | .unreadable => .unreadableInteger
  | .oversized => .oversizedInteger

/-- An integer: an integer, a truth value as one or zero, a double with
no fraction strictly between `±2^63`, or integer text. -/
def integer : Reader Int
  | .value (.int n) => accept n
  | .value (.bool b) => accept (if b then 1 else 0)
  | .value (.num x) =>
    if !x.isFinite then defect .notFinite
    else match x.toInt? with
      | some n => if n.natAbs < wordLimit then accept n else defect .oversizedInteger
      | none => defect .fractional
  | .value (.text s) =>
    match IntegerText.read s.toList with
    | .ok n => accept n
    | .error d => defect (ofIntegerDefect d)
  | _ => defect .notInteger

/-- The words for true and for false. -/
def truthWords : List (String × Bool) :=
  [("true", true), ("t", true), ("yes", true), ("y", true), ("on", true), ("1", true),
   ("false", false), ("f", false), ("no", false), ("n", false), ("off", false), ("0", false)]

/-- The truth value that one or zero stands for. -/
def ofBit (n : Int) : Checked Bool :=
  if n = 1 then accept true else if n = 0 then accept false else defect .unreadableTruth

/-- A truth value: itself, the number one or zero, or a word in either
case. A number that is no integer of 64 bits is not held for one at all. -/
def truth : Reader Bool
  | .value (.bool b) => accept b
  | .value (.int n) => if isWordSized n then ofBit n else defect .notTruth
  | .value (.num x) =>
    match x.toInt? with
    | some n => if n.natAbs < wordLimit then ofBit n else defect .notTruth
    | none => defect .notTruth
  | .value (.text s) => (truthWords.lookup s.toLower).elim (defect .unreadableTruth) accept
  | _ => defect .notTruth

/-- A timestamp, its text, or a number that counts its seconds. -/
def timestamp : Reader Timestamp
  | .timestamp t => accept t
  | .value (.text s) => named (Timestamp.ofText s.toList)
  | .value (.num x) => named (Timestamp.ofDouble x)
  | .value (.int n) =>
    if isWordSized n then named (Timestamp.ofInt n)
    -- beyond 64 bits an integer counts as the double nearest to it
    else (Binary64.ofInt? n).elim (defect .notTimestamp) fun x => named (Timestamp.ofDouble x)
  | _ => defect .notTimestamp
where
  /-- what was named, or why nothing was -/
  named : Except TimestampDefect Timestamp → Checked Timestamp
    | .ok t => accept t
    | .error d => defect (.badTimestamp d)

def token : Reader Token
  | .token t => accept t
  | _ => defect .notToken

/-! ## Kinds made of others -/

/-- Nothing, or what another reader takes. -/
def orNull (reader : Reader α) : Reader (Option α)
  | .value .null => accept none
  | raw => (reader raw).map some

/-- A list whose items one reader takes. -/
def list (reader : Reader α) : Reader (List α) := fun raw =>
  match raw.items? with
  | some items => all (items.zipIdx.map fun item => (reader item.1).inside (.item item.2))
  | none => defect .notList

/-- A record of some kind. -/
def record (kind : RecordKind) (read : Record → Checked α) : Reader α := fun raw =>
  raw.record?.elim (defect (.notRecord kind)) read

/-! ## Bounds -/

/-- An integer of at least some size. -/
def integerFrom (least : Int) : Reader Int := fun raw =>
  (integer raw).andThen fun n => if least ≤ n then accept n else defect (.below least)

/-- A natural number. -/
def natural : Reader Nat := fun raw => (integerFrom 0 raw).map Int.toNat

/-- A natural number above zero. -/
def positiveNatural : Reader { n : Nat // 0 < n } := fun raw =>
  (integer raw).andThen fun n =>
    if h : 1 ≤ n then accept ⟨n.toNat, by omega⟩ else defect (.below 1)

/-- A double that is not negative. What is not a number fails. -/
def nonNegative : Reader { x : Binary64 // Binary64.zero ≤ x } := fun raw =>
  (number raw).andThen fun x =>
    if h : Binary64.zero ≤ x then accept ⟨x, h⟩ else defect (.below 0)

/-- A positive double. What is not a number fails. -/
def positive : Reader { x : Binary64 // Binary64.zero < x } := fun raw =>
  (number raw).andThen fun x =>
    if h : Binary64.zero < x then accept ⟨x, h⟩ else defect (.notAbove 0)

end Reader

namespace Record

variable {α : Type}

/-- A field that must be there. -/
def required (record : Record) (name : String) (reader : Reader α) : Checked α :=
  Checked.inside (.field name) <|
    match record.lookup name with
    | some raw => reader raw
    | none => .defect .missing

/-- A field that has a default. -/
def withDefault (record : Record) (name : String) (default : α) (reader : Reader α) : Checked α :=
  match record.lookup name with
  | some raw => (reader raw).inside (.field name)
  | none => .accept default

end Record

end KnowledgeGraph
