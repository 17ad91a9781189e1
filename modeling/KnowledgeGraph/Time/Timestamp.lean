import KnowledgeGraph.Number.Decimal
import KnowledgeGraph.Number.Format
/-!
# Timestamps

A date, a time of day to the microsecond and perhaps an offset from
universal time, and their form in ISO 8601. `readDateTime?` takes a date
and a time behind `T`, a space or an underscore. What texts are taken for
timestamps in records is the subject of `Time.Reading`.
-/

namespace KnowledgeGraph

structure Timestamp where
  year : Nat
  month : Nat
  day : Nat
  hour : Nat
  minute : Nat
  second : Nat
  microsecond : Nat
  /-- microseconds ahead of universal time, if the offset is known -/
  offset : Option Int
deriving DecidableEq

/-- The microseconds in a second. -/
def microsecondsPerSecond : Nat := 1000000

namespace Timestamp

/-- What is wrong with a date. -/
inductive DateDefect where
  | tooShort
  | yearDigit
  | separator
  | monthDigit
  | dayDigit
  | monthRange
  | dayRange
  | extraCharacters
  /-- a count of seconds leads before the year 0 -/
  | tooEarly
  /-- a count of seconds leads beyond the year 9999 -/
  | tooLate
deriving DecidableEq

def DateDefect.message : DateDefect → String
  | tooShort => "input is too short"
  | yearDigit => "invalid character in year"
  | separator => "invalid date separator, expected `-`"
  | monthDigit => "invalid character in month"
  | dayDigit => "invalid character in day"
  | monthRange => "month value is outside expected range of 1-12"
  | dayRange => "day value is outside expected range"
  | extraCharacters => "unexpected extra characters at the end of the input"
  | tooEarly => "dates before 0000 are not supported as unix timestamps"
  | tooLate => "dates after 9999 are not supported as unix timestamps"

def isLeap (year : Nat) : Bool := year % 4 = 0 && (year % 100 ≠ 0 || year % 400 = 0)

/-- The days of a month, if there is such a month. -/
def daysIn? (year month : Nat) : Option Nat :=
  if month = 2 then some (if isLeap year then 29 else 28)
  else if month = 4 || month = 6 || month = 9 || month = 11 then some 30
  else if 1 ≤ month && month ≤ 12 then some 31
  else none

/-- A number of so many digits, and what follows it. -/
def takeDigits? (count : Nat) (text : List Char) : Option (Nat × List Char) :=
  let digits := text.take count
  if digits.length = count && digits.all Char.isDigit then some (ofDigits digits, text.drop count)
  else none

/-- What stands behind one expected character. -/
def takeChar? (expected : Char) : List Char → Option (List Char)
  | c :: rest => if c = expected then some rest else none
  | [] => none

/-- A year, month and day at the front of a text. The first defect
counts, a short text before all others. -/
def readDate (text : List Char) : Except DateDefect ((Nat × Nat × Nat) × List Char) := do
  if (String.ofList text).utf8ByteSize < 10 then throw .tooShort
  let (year, rest) ← (takeDigits? 4 text).elim (throw .yearDigit) pure
  let rest ← (takeChar? '-' rest).elim (throw .separator) pure
  let (month, rest) ← (takeDigits? 2 rest).elim (throw .monthDigit) pure
  let rest ← (takeChar? '-' rest).elim (throw .separator) pure
  let (day, rest) ← (takeDigits? 2 rest).elim (throw .dayDigit) pure
  let days ← (daysIn? year month).elim (throw .monthRange) pure
  if day < 1 || days < day then throw .dayRange
  return ((year, month, day), rest)

/-- The microseconds of a run of digits behind the point; digits beyond
the sixth are cut off. -/
def microseconds (digits : List Char) : Nat :=
  ofDigits ((digits ++ List.replicate 6 '0').take 6)

/-- Seconds and microseconds behind the minute, or none of both. -/
def readSeconds? : List Char → Option ((Nat × Nat) × List Char)
  | ':' :: rest => do
    let (second, rest) ← takeDigits? 2 rest
    if 59 < second then none
    else match rest with
      | mark :: tail =>
        if mark = '.' || mark = ',' then
          let (digits, tail) := tail.span Char.isDigit
          if digits.isEmpty then none else some ((second, microseconds digits), tail)
        else some ((second, 0), rest)
      | [] => some ((second, 0), [])
  | rest => some ((0, 0), rest)

/-- An offset to the end of the text: none, `Z`, or a sign, hours and
minutes. -/
def readOffset? : List Char → Option (Option Int)
  | [] => some none
  | ['Z'] => some (some 0)
  | ['z'] => some (some 0)
  | sign :: rest => do
    let negative ←
      if sign = '+' then some false else if sign = '-' || sign = '\u2212' then some true else none
    let (hours, rest) ← takeDigits? 2 rest
    -- the colon may be left out
    let (minutes, rest) ← takeDigits? 2 ((takeChar? ':' rest).getD rest)
    if rest.isEmpty && minutes < 60 && hours < 24 then
      some (some (Binary64.signed negative
        ((60 * hours + minutes) * 60 * microsecondsPerSecond)))
    else none

/-- A date and a time. -/
def readDateTime? (text : List Char) : Option Timestamp := do
  let ((year, month, day), rest) ← (readDate text).toOption
  match rest with
  | mark :: rest =>
    if mark = 'T' || mark = 't' || mark = ' ' || mark = '_' then
      let (hour, rest) ← takeDigits? 2 rest
      let rest ← takeChar? ':' rest
      let (minute, rest) ← takeDigits? 2 rest
      if 23 < hour || 59 < minute then none
      else
        let ((second, microsecond), rest) ← readSeconds? rest
        let offset ← readOffset? rest
        some ⟨year, month, day, hour, minute, second, microsecond, offset⟩
    else none
  | [] => none

/-- The first instant of a day, with no offset. -/
def midnight (date : Nat × Nat × Nat) : Timestamp := ⟨date.1, date.2.1, date.2.2, 0, 0, 0, 0, none⟩

/-! ## Writing -/

/-- A number in so many digits. -/
def digits (width n : Nat) : List Char := padZeros width (digitsOf n)

/-- A fraction of a second in microseconds, where there is one. -/
def fractionText (microsecond : Nat) : List Char :=
  if microsecond = 0 then [] else '.' :: digits 6 microsecond

/-- An offset as a sign, hours and minutes; seconds and their fraction
only where there are any. -/
def offsetText (offset : Int) : List Char :=
  let seconds := offset.natAbs / microsecondsPerSecond
  let fraction := offset.natAbs % microsecondsPerSecond
  (if offset < 0 then '-' else '+') ::
    digits 2 (seconds / 3600) ++ ':' :: digits 2 (seconds / 60 % 60) ++
    if offset.natAbs % (60 * microsecondsPerSecond) = 0 then []
    else ':' :: digits 2 (seconds % 60) ++ fractionText fraction

/-- The form with `T`; microseconds and offset only where there are any. -/
def text (t : Timestamp) : String :=
  String.ofList <|
    digits 4 t.year ++ '-' :: digits 2 t.month ++ '-' :: digits 2 t.day ++
    'T' :: digits 2 t.hour ++ ':' :: digits 2 t.minute ++ ':' :: digits 2 t.second ++
    fractionText t.microsecond ++ (t.offset.map offsetText).getD []

end Timestamp

end KnowledgeGraph
