/-!
Whole numbers in arguments: an optional sign and decimal digits, checked from left to right, so
that the first fault decides.
-/

set_option autoImplicit false

namespace ChatHub.CommandLine

inductive NumberFault where
  | empty
  | invalidDigit
  | tooLarge
  | tooSmall
  | zero
  | outside (value : Int) (limit : Nat)
  deriving DecidableEq, Repr

def NumberFault.message : NumberFault → String
  | .empty => "cannot parse integer from empty string"
  | .invalidDigit => "invalid digit found in string"
  | .tooLarge => "number too large to fit in target type"
  | .tooSmall => "number too small to fit in target type"
  | .zero => "number would be zero for non-zero type"
  | .outside value limit => toString value ++ " is not in 0..=" ++ toString limit

namespace Number

/-- Reads digits behind others that amount to `value`. A digit that would take the number beyond
the limit ends the reading. -/
def digits (limit : Nat) (tooFar : NumberFault) (value : Nat) : List Char → Except NumberFault Nat
  | [] => .ok value
  | character :: rest =>
    if !character.isDigit then .error .invalidDigit
    else
      let next := 10 * value + (character.toNat - '0'.toNat)
      if limit < next then .error tooFar else digits limit tooFar next rest

/-- Reads the digits behind a sign; there has to be one. -/
def signed (limit : Nat) (tooFar : NumberFault) (text : List Char) : Except NumberFault Nat :=
  if text.isEmpty then .error .invalidDigit else digits limit tooFar 0 text

/-- Reads a number that cannot be negative. A minus sign is no digit. -/
def natural (limit : Nat) (text : String) : Except NumberFault Nat :=
  match text.toList with
  | [] => .error .empty
  | '+' :: rest => signed limit .tooLarge rest
  | characters => digits limit .tooLarge 0 characters

def integer64 (text : String) : Except NumberFault Int :=
  match text.toList with
  | [] => .error .empty
  | '+' :: rest => (signed (Nat.pow 2 63 - 1) .tooLarge rest).map Int.ofNat
  | '-' :: rest => (signed (Nat.pow 2 63) .tooSmall rest).map fun value => -(value : Int)
  | characters => (digits (Nat.pow 2 63 - 1) .tooLarge 0 characters).map Int.ofNat

def natural64 (text : String) : Except NumberFault Nat :=
  natural (Nat.pow 2 64 - 1) text

def positive64 (text : String) : Except NumberFault Nat :=
  match natural64 text with
  | .ok 0 => .error .zero
  | other => other

/-- A port: a number with a sign, and then its range is checked. -/
def port (text : String) : Except NumberFault Nat :=
  match integer64 text with
  | .error fault => .error fault
  | .ok value =>
    if value < 0 ∨ 65535 < value then .error (.outside value 65535) else .ok value.toNat

end Number

end ChatHub.CommandLine
