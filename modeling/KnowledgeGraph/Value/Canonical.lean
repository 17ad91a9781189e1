import KnowledgeGraph.Fault.Basic
import KnowledgeGraph.Number.Format
import KnowledgeGraph.Number.IntegerText
import KnowledgeGraph.Text.Hexadecimal
/-!
# The canonical text of a value

A value as JSON in ASCII without spaces, the fields of every map in the
order of their keys. Equal values have one text in whatever order their
fields stand, and the kinds stay apart: a double always has a point, an
exponent or a word, which no integer has.

An integer is written with no more digits than one that is read may have.
A value that holds a longer one, at any depth, has no canonical text.
-/

namespace KnowledgeGraph

namespace Canonical

/-- A code unit of UTF-16 as an escape. -/
def escapeUnit (unit : Nat) : List Char := '\\' :: 'u' :: Text.hexadecimal 4 unit

/-- One character inside quotes. Outside printable ASCII it is written
as its code units in UTF-16. -/
def escapeChar (c : Char) : List Char :=
  if c = '"' || c = '\\' then ['\\', c]
  else if c = '\n' then ['\\', 'n']
  else if c = '\r' then ['\\', 'r']
  else if c = '\t' then ['\\', 't']
  else if c = '\x0c' then ['\\', 'f']
  else if c = '\x08' then ['\\', 'b']
  else if ' ' ≤ c && c ≤ '~' then [c]
  else if c.toNat < 0x10000 then escapeUnit c.toNat
  else
    escapeUnit (0xD800 + (c.toNat - 0x10000) / 0x400) ++
      escapeUnit (0xDC00 + (c.toNat - 0x10000) % 0x400)

/-- A text in quotes. -/
def quote (s : String) : List Char := '"' :: s.toList.flatMap escapeChar ++ ['"']

/-- An integer in decimal, of whatever length. -/
def decimal (n : Int) : List Char := signText (decide (n < 0)) ++ digitsOf n.natAbs

/-- An integer in decimal, unless it has too many digits. -/
def integer (n : Int) : Except Fault (List Char) :=
  if IntegerText.mostDigits < (digitsOf n.natAbs).length then .error .oversized
  else .ok (decimal n)

/-- A double: its shortest text, or a word. -/
def double : Binary64 → List Char
  | .nan => "NaN".toList
  | .infinite s => signText s ++ "Infinity".toList
  | x => x.text

/-- Texts with commas between them. -/
def commaSeparated (texts : List (List Char)) : List Char := [','].intercalate texts

/-- Fields in the order of their keys. -/
def sortByKey {α : Type} (fields : List (String × α)) : List (String × α) :=
  fields.mergeSort fun a b => decide (a.1 ≤ b.1)

/-- A key and the text of its value. -/
def field (entry : String × List Char) : List Char := quote entry.1 ++ ':' :: entry.2

end Canonical

namespace Value

open Canonical

mutual

/-- The canonical text. -/
def canonical : Value → Except Fault (List Char)
  | null => .ok "null".toList
  | bool b => .ok (if b then "true".toList else "false".toList)
  | int n => integer n
  | num x => .ok (double x)
  | text s => .ok (quote s)
  | list items => do
    let texts ← canonicalItems items
    return '[' :: commaSeparated texts ++ [']']
  | map fields => do
    let texts ← canonicalFields fields
    return '\x7b' :: commaSeparated ((sortByKey texts).map field) ++ ['\x7d']

def canonicalItems : List Value → Except Fault (List (List Char))
  | [] => .ok []
  | v :: rest => do
    let first ← canonical v
    return first :: (← canonicalItems rest)

/-- Every field with the text of its value. -/
def canonicalFields : Fields → Except Fault (List (String × List Char))
  | [] => .ok []
  | (k, v) :: rest => do
    let first ← canonical v
    return (k, first) :: (← canonicalFields rest)

end

end Value

end KnowledgeGraph
