import ChatHub.Decimal.Shortest
import ChatHub.Text.Utf8
/-!
Why a line is not the message that was expected, and where. Causes carry what their wording needs;
the place is kept as the text still unread, from which the column is counted.
-/

set_option autoImplicit false

namespace ChatHub.Json

/-- A value found where another kind was expected. Whole numbers outside the range of 64-bit
integers count as floating point. -/
inductive Found where
  | null
  | boolean (value : Bool)
  | integer (value : Int)
  | floating (value : Float)
  | text (quoted : String)
  | sequence
  | map

def Found.describe : Found → String
  | .null => "null"
  | .boolean value => "boolean `" ++ toString value ++ "`"
  | .integer value => "integer `" ++ toString value ++ "`"
  | .floating value => "floating point `" ++ (Decimal.shortestText? value).getD "" ++ "`"
  | .text quoted => "string " ++ quoted
  | .sequence => "sequence"
  | .map => "map"

/-- The reasons for refusing a line. The first group is about syntax, the second about the fields
of the record that the line should hold. -/
inductive Cause where
  | endOfList
  | endOfObject
  | endOfString
  | endOfValue
  | expectedColon
  | expectedListCommaOrEnd
  | expectedObjectCommaOrEnd
  | expectedIdent
  | expectedValue
  | invalidEscape
  | invalidNumber
  | numberOutOfRange
  | loneSurrogate
  | endOfHexEscape
  | controlCharacter
  | keyNotString
  | trailingComma
  | trailingCharacters
  | invalidType (found : Found) (expected : String)
  | invalidLength (length : Nat) (expected : String)
  | duplicateField (name : String)
  | missingField (name : String)

def Cause.describe : Cause → String
  | .endOfList => "EOF while parsing a list"
  | .endOfObject => "EOF while parsing an object"
  | .endOfString => "EOF while parsing a string"
  | .endOfValue => "EOF while parsing a value"
  | .expectedColon => "expected `:`"
  | .expectedListCommaOrEnd => "expected `,` or `]`"
  | .expectedObjectCommaOrEnd => "expected `,` or `\x7d`"
  | .expectedIdent => "expected ident"
  | .expectedValue => "expected value"
  | .invalidEscape => "invalid escape"
  | .invalidNumber => "invalid number"
  | .numberOutOfRange => "number out of range"
  | .loneSurrogate => "lone leading surrogate in hex escape"
  | .endOfHexEscape => "unexpected end of hex escape"
  | .controlCharacter => "control character (\\u0000-\\u001F) found while parsing a string"
  | .keyNotString => "key must be a string"
  | .trailingComma => "trailing comma"
  | .trailingCharacters => "trailing characters"
  | .invalidType found expected => "invalid type: " ++ found.describe ++ ", expected " ++ expected
  | .invalidLength length expected =>
    "invalid length " ++ toString length ++ ", expected " ++ expected
  | .duplicateField name => "duplicate field `" ++ name ++ "`"
  | .missingField name => "missing field `" ++ name ++ "`"

/-- A cause at a place: `unread` is the text behind the last character taken, `ahead` the number
of bytes of it that were looked at. -/
structure Failure where
  cause : Cause
  unread : List Char
  ahead : Nat := 0

/-- The result of reading something off the front of a text: a value and the text behind it. -/
abbrev Scan (α : Type) := Except Failure (α × List Char)

/-- Fails at the next character; at the end of the text there is none to look at. -/
def failAtNext {α : Type} (cause : Cause) (unread : List Char) : Except Failure α :=
  .error ⟨cause, unread, if unread.isEmpty then 0 else 1⟩

def failHere {α : Type} (cause : Cause) (unread : List Char) : Except Failure α :=
  .error ⟨cause, unread, 0⟩

/-- The column of a failure in the line it was found in: one for the first byte, zero before
it. -/
def Failure.column (failure : Failure) (line : List Char) : Nat :=
  Utf8.size line - Utf8.size failure.unread + failure.ahead

def isBlank (character : Char) : Bool :=
  character == ' ' || character == '\t' || character == '\n' || character == '\r'

def skipBlank (text : List Char) : List Char :=
  text.dropWhile isBlank

theorem skipBlank_length_le (text : List Char) : (skipBlank text).length ≤ text.length :=
  (List.dropWhile_suffix isBlank).length_le

theorem length_lt_of_skipBlank {text rest : List Char} {first : Char}
    (front : skipBlank text = first :: rest) : rest.length < text.length := by
  have shorter := skipBlank_length_le text
  simp only [front, List.length_cons] at shorter
  omega

end ChatHub.Json
