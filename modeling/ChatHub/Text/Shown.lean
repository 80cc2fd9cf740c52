import ChatHub.Text.Combining
import ChatHub.Text.Invisible
/-!
Texts inside error messages. They stand between quotes, and a character that would not be seen is
spelled by its code point in braces.
-/

set_option autoImplicit false

namespace ChatHub.Text

/-- A character by its code point, in lower-case hexadecimal without leading zeros. -/
def codePoint (character : Char) : List Char :=
  ['\\', 'u', '\x7b'] ++ Nat.toDigits 16 character.toNat ++ ['\x7d']

/-- One character of a shown text. Plain ASCII needs no look into the tables. -/
def showChar (character : Char) : List Char :=
  if character = '"' then ['\\', '"']
  else if character = '\\' then ['\\', '\\']
  else if character = '\n' then ['\\', 'n']
  else if character = '\r' then ['\\', 'r']
  else if character = '\t' then ['\\', 't']
  else if character = '\x00' then ['\\', '0']
  else if ' ' ≤ character ∧ character ≤ '~' then [character]
  else if isCombining character || isInvisible character then codePoint character
  else [character]

/-- A text between quotes with everything in it visible. -/
def shown (text : List Char) : String :=
  String.ofList ('"' :: (text.flatMap showChar ++ ['"']))

end ChatHub.Text
