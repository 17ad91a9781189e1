import KnowledgeGraph.Text.Hexadecimal
import KnowledgeGraph.Text.Printable
/-!
# A name in quotes

How a name is shown in a message: between apostrophes, or between double
quotes if the name holds an apostrophe and no double quote. A backslash,
the chosen quote and characters that are not printable are escaped, the
last by the shortest of three forms that holds their number.
-/

namespace KnowledgeGraph.Text

/-- A code point by its number, in two, four or eight digits. -/
def escapedNumber (n : Nat) : List Char :=
  if n < 0x100 then '\\' :: 'x' :: hexadecimal 2 n
  else if n < 0x10000 then '\\' :: 'u' :: hexadecimal 4 n
  else '\\' :: 'U' :: hexadecimal 8 n

/-- One character between quotes. -/
def quotedChar (quote c : Char) : List Char :=
  if c = quote || c = '\\' then ['\\', c]
  else if c = '\n' then ['\\', 'n']
  else if c = '\r' then ['\\', 'r']
  else if c = '\t' then ['\\', 't']
  else if isPrintable c then [c]
  else escapedNumber c.toNat

def quoted (name : String) : String :=
  let text := name.toList
  let quote := if text.contains '\'' && !text.contains '"' then '"' else '\''
  String.ofList (quote :: text.flatMap (quotedChar quote) ++ [quote])

end KnowledgeGraph.Text
