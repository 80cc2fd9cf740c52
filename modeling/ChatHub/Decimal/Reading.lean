/-!
Reading a decimal text as the nearest double.
-/

set_option autoImplicit false

namespace ChatHub.Decimal

/-- The value of a list of decimal digits, absent if there is none or another character. -/
def natOfDigits? (digits : List Char) : Option Nat :=
  if digits.isEmpty || !digits.all Char.isDigit then none
  else some (digits.foldl (fun value digit => 10 * value + (digit.toNat - '0'.toNat)) 0)

def intOfDigits? : List Char → Option Int
  | '-' :: digits => (natOfDigits? digits).map fun value => -(value : Int)
  | '+' :: digits => (natOfDigits? digits).map Int.ofNat
  | digits => (natOfDigits? digits).map Int.ofNat

/-- Digits times a power of ten as the nearest double. Exponents far beyond the range are cut, as
they change nothing. -/
def nearest (digits : Nat) (exponent : Int) : Float :=
  let bounded := max (-4000) (min 4000 exponent)
  Float.ofScientific digits (bounded < 0) bounded.natAbs

def unsigned? (text : List Char) : Option Float :=
  let mantissa := text.takeWhile fun character => character != 'e' && character != 'E'
  let tail := (text.drop mantissa.length).drop 1
  let exponent? := if mantissa.length = text.length then some 0 else intOfDigits? tail
  let whole := mantissa.takeWhile (· != '.')
  let places := (mantissa.drop whole.length).drop 1
  match exponent?, natOfDigits? (whole ++ places) with
  | some exponent, some digits => some (nearest digits (exponent - places.length))
  | _, _ => none

/-- A number as it is written in a report, with the words for the values that are not finite. -/
def float? (text : String) : Option Float :=
  match text.toList with
  | ['N', 'a', 'N'] => some (0.0 / 0.0)
  | ['i', 'n', 'f'] => some (1.0 / 0.0)
  | ['-', 'i', 'n', 'f'] => some (-1.0 / 0.0)
  | '-' :: digits => (unsigned? digits).map (-·)
  | '+' :: digits => unsigned? digits
  | digits => unsigned? digits

end ChatHub.Decimal
