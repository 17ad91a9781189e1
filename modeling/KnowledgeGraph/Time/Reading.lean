import KnowledgeGraph.Time.Unix
/-!
# What is taken for a timestamp

A text is read as a date and a time, else as a count of seconds, else as
a date alone, at midnight. If it is none of them it is judged as a date,
and the reason given is the date's. Numbers are counts of seconds. The
year 0 can be written, but no timestamp is in it.
-/

namespace KnowledgeGraph

/-- Why something is not taken for a timestamp. -/
inductive TimestampDefect where
  /-- a text is no timestamp, and no date for this reason -/
  | unreadable (reason : Timestamp.DateDefect)
  /-- a number leads out of the calendar -/
  | outOfRange (reason : Timestamp.DateDefect)
  | notANumber
  | yearZero
deriving DecidableEq

namespace TimestampDefect

def code : TimestampDefect → String
  | unreadable _ => "datetime_from_date_parsing"
  | outOfRange _ | notANumber | yearZero => "datetime_parsing"

def message : TimestampDefect → String
  | unreadable reason => s!"Input should be a valid datetime or date, {reason.message}"
  | outOfRange reason => s!"Input should be a valid datetime, {reason.message}"
  | notANumber => "Input should be a valid datetime, NaN values not permitted"
  | yearZero => "Input should be a valid datetime, year 0 is out of range"

end TimestampDefect

namespace Timestamp

/-- A timestamp of some year other than 0. -/
def notInYearZero (t : Timestamp) : Except TimestampDefect Timestamp :=
  if t.year = 0 then .error .yearZero else .ok t

/-- A whole text as a date. A count of seconds that is too early or too
late is no date for that reason. -/
def ofDateText (text : List Char) : Except DateDefect Timestamp :=
  match readDate text with
  | .ok (date, rest) => if rest.isEmpty then .ok (midnight date) else .error .extraCharacters
  | .error reason =>
    match readCount? text with
    | some count => ofCount count
    | none => .error reason

/-- A text that names an instant, with or without a time of day. -/
def ofText (text : List Char) : Except TimestampDefect Timestamp :=
  match readDateTime? text, ofCountText? text with
  | some t, _ => notInYearZero t
  | none, some (.ok t) => notInYearZero t
  | none, _ => ((ofDateText text).mapError .unreadable).bind notInYearZero

/-- A count that comes as an integer of 64 bits. -/
def ofInt (count : Int) : Except TimestampDefect Timestamp :=
  ((ofCount count).mapError .outOfRange).bind notInYearZero

/-- A count that comes as a double. -/
def ofDouble (x : Binary64) : Except TimestampDefect Timestamp :=
  match ofDouble? x with
  | some t => (t.mapError .outOfRange).bind notInYearZero
  | none => .error .notANumber

end Timestamp

end KnowledgeGraph
