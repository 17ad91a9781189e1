/-!
# Wildcard patterns

A pattern is matched against a whole text. A star stands for any run of
characters, a question mark for any one, and a bracket expression for
one character of a set: characters and ranges, or all others behind an
exclamation mark. There is no escape character. A bracket that is never
closed stands for itself, and a range whose ends are in the wrong order
is dropped, together with its ends.
-/

namespace KnowledgeGraph.Text

/-- A set of characters, or its complement. -/
structure CharSet where
  negated : Bool
  members : List Char
  ranges : List (Char × Char)

/-- Whether a character is in a set. -/
def CharSet.has (set : CharSet) (c : Char) : Bool :=
  set.negated != (set.members.contains c || set.ranges.any fun r => r.1 ≤ c && c ≤ r.2)

/-- What one place of a pattern stands for. -/
inductive Wildcard where
  /-- any run of characters -/
  | star
  /-- any one character -/
  | any
  /-- this character -/
  | char (c : Char)
  /-- one character of a set -/
  | oneOf (set : CharSet)
  /-- nothing at all -/
  | never

namespace Wildcard

/-! ## Bracket expressions -/

/-- How many characters a bracket expression has before its closing
bracket; one at the very front, after the exclamation mark, does not
close it. -/
def bracketLength? (text : List Char) : Option Nat :=
  let opening :=
    match text with
    | '!' :: ']' :: _ => 2
    | '!' :: _ => 1
    | ']' :: _ => 1
    | _ => 0
  ((text.drop opening).idxOf? ']').map (· + opening)

/-- A bracket expression cut at the hyphens that make ranges. Such a
hyphen has `least` characters before it at first and two after another
hyphen, so the end of one range begins no other; a hyphen at the end
stands for itself. -/
def cutRanges (least : Nat) (chunk : List Char) : List Char → List (List Char)
  | [] => [chunk.reverse]
  | c :: rest =>
    if c = '-' && least = 0 then
      -- nothing follows, so there is no range
      if rest.isEmpty then [('-' :: chunk).reverse] else chunk.reverse :: cutRanges 2 [] rest
    else cutRanges (least - 1) (c :: chunk) rest

/-- A chunk in front of the others. If it would end a range in the wrong
order with the next, both ends go and the chunks become one. -/
def joinRange (chunk : List Char) : List (List Char) → List (List Char)
  | next :: rest =>
    match chunk.getLast?, next.head? with
    | some low, some high =>
      if high < low then (chunk.dropLast ++ next.tail) :: rest else chunk :: next :: rest
    | _, _ => chunk :: next :: rest
  | [] => [chunk]

/-- The ranges between the last character of a chunk and the first of
the next. -/
def rangesBetween : List (List Char) → List (Char × Char)
  | chunk :: next :: rest =>
    match chunk.getLast?, next.head? with
    | some low, some high => (low, high) :: rangesBetween (next :: rest)
    | _, _ => rangesBetween (next :: rest)
  | _ => []

/-- The set that chunks denote. A hyphen with nothing before it is a
member. -/
def setOfChunks (negated : Bool) (chunks : List (List Char)) : CharSet :=
  let hyphen :=
    match chunks with
    | [] :: _ :: _ => ['-']
    | _ => []
  ⟨negated, hyphen ++ chunks.flatten, rangesBetween chunks⟩

/-- A bracket expression. With nothing left in it, it matches nothing,
and its complement anything. -/
def ofBracket (text : List Char) : Wildcard :=
  let least := if text.head? = some '!' then 2 else 1
  match (cutRanges least [] text).foldr joinRange [] with
  | [[]] => never
  | [['!']] => any
  | ('!' :: first) :: rest => oneOf (setOfChunks true (first :: rest))
  | chunks => oneOf (setOfChunks false chunks)

/-! ## Patterns -/

/-- A pattern's places, after `skip` characters that belong to a bracket
expression already read. -/
def parseFrom (skip : Nat) : List Char → List Wildcard
  | [] => []
  | c :: rest =>
    match skip with
    | skip + 1 => parseFrom skip rest
    | 0 =>
      if c = '*' then star :: parseFrom 0 rest
      else if c = '?' then any :: parseFrom 0 rest
      else if c = '[' then
        match bracketLength? rest with
        | some n => ofBracket (rest.take n) :: parseFrom (n + 1) rest
        | none => char c :: parseFrom 0 rest
      else char c :: parseFrom 0 rest

def parse (pattern : List Char) : List Wildcard := parseFrom 0 pattern

/-- Whether a place that is no star matches a character. -/
def admits : Wildcard → Char → Bool
  | any, _ => true
  | char d, c => c = d
  | oneOf set, c => set.has c
  | star, _ | never, _ => false

/-- All ends of a text, from the whole to nothing. -/
def suffixes : List Char → List (List Char)
  | [] => [[]]
  | c :: rest => (c :: rest) :: suffixes rest

/-- Whether places match a whole text: a star leaves any end of the text
to the places after it. -/
def matchAll : List Wildcard → List Char → Bool
  | [], text => text.isEmpty
  | star :: places, text => (suffixes text).any (matchAll places)
  | _ :: _, [] => false
  | place :: places, c :: text => place.admits c && matchAll places text

/-! ## Matching in one pass

A star would try every end of the text again and again. Instead the ends
are all decided at once, place by place from the last
(`matchEnds_eq_map`). -/

/-- For each place in a list, whether there is a true one from there on. -/
def anyFrom : List Bool → List Bool
  | [] => []
  | b :: rest =>
    let later := anyFrom rest
    (b || later.head?.getD false) :: later

/-- For each end of a text, from the whole to nothing, whether places
match it. -/
def matchEnds : List Wildcard → List Char → List Bool
  | [], text => text.map (fun _ => false) ++ [true]
  | star :: places, text => anyFrom (matchEnds places text)
  | place :: places, text =>
    text.zipWith (fun c rest => place.admits c && rest) (matchEnds places text).tail ++ [false]

theorem anyFrom_map_suffixes (f : List Char → Bool) (text : List Char) :
    anyFrom ((suffixes text).map f) = (suffixes text).map fun t => (suffixes t).any f := by
  induction text with
  | nil => simp [suffixes, anyFrom]
  | cons c rest ih =>
    simp only [suffixes, List.map_cons, anyFrom, ih, List.any_cons]
    congr 2
    cases rest <;> simp [suffixes]

theorem zipWith_tail_suffixes (f : List Char → Bool) (g : Char → Bool → Bool) (text : List Char) :
    text.zipWith g ((suffixes text).map f).tail ++ [false] =
      (suffixes text).map fun
        | [] => false
        | c :: rest => g c (f rest) := by
  induction text with
  | nil => rfl
  | cons c rest ih =>
    cases rest with
    | nil => rfl
    | cons d rest => simpa [suffixes] using ih

/-- **The ends that are found to match are those that match.** -/
theorem matchEnds_eq_map (places : List Wildcard) (text : List Char) :
    matchEnds places text = (suffixes text).map (matchAll places) := by
  induction places with
  | nil =>
    rw [matchEnds]
    induction text with
    | nil => rfl
    | cons c rest ih => simpa [suffixes, matchAll] using ih
  | cons place places ih =>
    cases place with
    | star => rw [matchEnds, ih, anyFrom_map_suffixes]; simp only [matchAll]
    | _ =>
      rw [matchEnds, ih, zipWith_tail_suffixes]
      · congr
        funext t
        cases t <;> simp [matchAll]
      · simp

end Wildcard

/-- Whether a text matches a wildcard pattern. -/
def matchesPattern (pattern text : List Char) : Bool :=
  (Wildcard.matchEnds (Wildcard.parse pattern) text).head?.getD false

theorem matchesPattern_eq_matchAll (pattern text : List Char) :
    matchesPattern pattern text = Wildcard.matchAll (Wildcard.parse pattern) text := by
  rw [matchesPattern, Wildcard.matchEnds_eq_map]
  cases text <;> rfl

end KnowledgeGraph.Text
