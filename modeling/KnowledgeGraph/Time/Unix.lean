import KnowledgeGraph.Number.Decimal
import KnowledgeGraph.Number.Word
import KnowledgeGraph.Time.Timestamp
/-!
# Timestamps from counts of seconds

A count of seconds since the start of 1970 names an instant in universal
time. A count beyond twenty thousand million, before or after that start,
is one of milliseconds. A fraction counts forward from the whole unit
below it, also before 1970.
-/

namespace KnowledgeGraph

namespace Timestamp

/-- The days from the start of the year 0 to the start of 1970. -/
def epochDay : Nat := 719528

def secondsPerDay : Nat := 86400

/-- The days in four centuries. -/
def daysPerEra : Nat := 146097

/-- The date of a day, counted from the first of the year 0. Years are
taken to begin in March, so that the leap day is a year's last, and an
era is four centuries of them; the first era begins four centuries
early. -/
def dateOfDay (day : Nat) : Nat × Nat × Nat :=
  let day := day + daysPerEra - 60
  let era := day / daysPerEra
  let dayOfEra := day % daysPerEra
  let yearOfEra := (dayOfEra - dayOfEra / 1460 + dayOfEra / 36524 - dayOfEra / 146096) / 365
  let dayOfYear := dayOfEra - (365 * yearOfEra + yearOfEra / 4 - yearOfEra / 100)
  -- months from March on, by the pattern of their lengths
  let month := (5 * dayOfYear + 2) / 153
  let dayOfMonth := dayOfYear - (153 * month + 2) / 5 + 1
  let month := if month < 10 then month + 3 else month - 9
  let year := yearOfEra + 400 * era + if month ≤ 2 then 1 else 0
  (year - 400, month, dayOfMonth)

/-- The start of the year 0 and the end of the year 9999, in seconds. -/
def firstSecond : Int := -(epochDay * secondsPerDay : Nat)

def lastSecond : Int := 253402300799

/-- The instant so many seconds and microseconds after the start of
1970. -/
def ofSeconds (seconds : Int) (microseconds : Nat) : Except DateDefect Timestamp :=
  let seconds := seconds + (microseconds / microsecondsPerSecond : Nat)
  if seconds < firstSecond then .error .tooEarly
  else if lastSecond < seconds then .error .tooLate
  else
    let elapsed := (seconds - firstSecond).toNat
    let time := elapsed % secondsPerDay
    .ok { midnight (dateOfDay (elapsed / secondsPerDay)) with
      hour := time / 3600, minute := time / 60 % 60, second := time % 60,
      microsecond := microseconds % microsecondsPerSecond, offset := some 0 }

/-- Where counts of seconds end and counts of milliseconds begin. -/
def greatestSeconds : Nat := 20000000000

/-- The unit of a count. -/
inductive CountUnit where
  | second
  | millisecond
deriving DecidableEq

namespace CountUnit

/-- The unit of a count that is beyond the greatest number of seconds, or
is not. -/
def ofBeyond (beyond : Bool) : CountUnit := if beyond then .millisecond else .second

/-- How many units make a second. -/
def perSecond : CountUnit → Nat
  | second => 1
  | millisecond => 1000

/-- How many microseconds make a unit. -/
def microseconds (u : CountUnit) : Nat := microsecondsPerSecond / u.perSecond

end CountUnit

/-- The instant so many units and microseconds after the start of 1970. -/
def ofUnits (u : CountUnit) (count : Int) (microseconds : Nat) : Except DateDefect Timestamp :=
  ofSeconds (count / u.perSecond) ((count % u.perSecond).toNat * u.microseconds + microseconds)

/-- The instant that a whole count names. -/
def ofCount (count : Int) : Except DateDefect Timestamp :=
  ofUnits (.ofBeyond (greatestSeconds < count.natAbs)) count 0

/-- The unit of a count that comes as a double. -/
def unitOf (count : Binary64) : CountUnit :=
  let greatest := Binary64.ofRatio false greatestSeconds 1
  .ofBeyond (greatest < count || count < greatest.neg)

/-- The microseconds from a whole number of units up to a count,
rounded. -/
def microsecondsAfter? (u : CountUnit) (whole : Int) (count : Binary64) : Option Nat := do
  let rest := count - (← Binary64.ofInt? whole)
  (rest * .ofRatio false u.microseconds 1).roundUp?

/-- The instant that a double names, read as a count; not a number names
none. -/
def ofDouble? : Binary64 → Option (Except DateDefect Timestamp)
  | .nan => none
  | .infinite negative => some (.error (if negative then .tooEarly else .tooLate))
  | count => do
    let u := unitOf count
    let whole ← count.floor?
    some (ofUnits u whole (← microsecondsAfter? u whole count))

/-! ## Counts in text -/

/-- An integer of 64 bits in decimal digits behind a sign or none. -/
def readCount? (text : List Char) : Option Int :=
  let (negative, digits) := Decimal.readSign text
  ((Decimal.readNat? digits).map (Binary64.signed negative)).filter isWordSized

/-- A double in decimal digits with a point among them, before them or
behind them, and after that a power of ten or none. -/
def readFractional? (text : List Char) : Option Binary64 :=
  let (negative, magnitude) := Decimal.readSign text
  if (magnitude.dropWhile Char.isDigit).head? = some '.' then
    (Decimal.read? magnitude).map (Decimal.toBinary64 negative)
  else none

/-- The instant that a count in text names, if the text is one. -/
def ofCountText? (text : List Char) : Option (Except DateDefect Timestamp) :=
  match readCount? text with
  | some count => some (ofCount count)
  | none => (readFractional? text).bind ofDouble?

end Timestamp

end KnowledgeGraph
