import KnowledgeGraph.Text.Blank
import KnowledgeGraph.Text.DecimalDigit
/-!
# Opaque tokens

Texts that look like machine-made identifiers: at least 24 hexadecimal
digits, or a UUID. A UUID may be written with hyphens anywhere, inside
braces and behind `urn:` or `uuid:`; what remains has 32 characters and
reads as a hexadecimal number.
-/

namespace KnowledgeGraph.Text

/-- A text without one newline at its end. -/
def dropFinalNewline (text : List Char) : List Char :=
  match text.reverse with
  | '\n' :: rest => rest.reverse
  | _ => text

/-- At least 24 hexadecimal digits, and perhaps a newline after them. -/
def isLongHex (text : List Char) : Bool :=
  let digits := dropFinalNewline text
  24 ≤ digits.length && digits.all isAsciiHexDigit

/-- A text without `urn:`. -/
def removeUrn : List Char → List Char
  | 'u' :: 'r' :: 'n' :: ':' :: rest => removeUrn rest
  | c :: rest => c :: removeUrn rest
  | [] => []

/-- A text without `uuid:`. -/
def removeUuid : List Char → List Char
  | 'u' :: 'u' :: 'i' :: 'd' :: ':' :: rest => removeUuid rest
  | c :: rest => c :: removeUuid rest
  | [] => []

/-- Hexadecimal digits with single underscores between them. -/
def isGroupedHex : List Char → Bool
  | [] => false
  | [c] => isAsciiHexDigit c
  | c :: '_' :: rest => isAsciiHexDigit c && isGroupedHex rest
  | c :: rest => isAsciiHexDigit c && isGroupedHex rest

/-- Hexadecimal digits behind an optional `0x`, after which an
underscore may stand. -/
def isUnsignedHex : List Char → Bool
  | '0' :: x :: rest =>
    if x = 'x' || x = 'X' then
      match rest with
      | '_' :: rest => isGroupedHex rest
      | _ => isGroupedHex rest
    else isGroupedHex ('0' :: x :: rest)
  | text => isGroupedHex text

/-- A hexadecimal number with an optional plus sign and white space
around it. Its decimal digits, the zero of `0x` among them, may be of
any script. -/
def isHexNumber (text : List Char) : Bool :=
  match trim isWhiteSpace (text.map plainDigit) with
  | '+' :: rest => isUnsignedHex rest
  | rest => isUnsignedHex rest

def isUuid (text : List Char) : Bool :=
  -- the markers go first, then the braces, then the hyphens between
  let bare := trim (fun c => c = '\x7b' || c = '\x7d') (removeUuid (removeUrn text))
  let hex := bare.filter (· ≠ '-')
  hex.length = 32 && isHexNumber hex

/-- Whether a text looks like a machine-made identifier. -/
def isOpaqueToken (text : List Char) : Bool :=
  24 ≤ text.length && (isLongHex text || isUuid text)

end KnowledgeGraph.Text
