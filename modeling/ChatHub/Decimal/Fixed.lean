import ChatHub.Number.Binary64
/-!
Doubles with a fixed number of decimal places. The exact value is rounded once, a half to the even
neighbour, and a minus sign stays even in front of zeros.
-/

set_option autoImplicit false

namespace ChatHub.Decimal

/-- The value of `mantissa · 2 ^ exponent` counted in steps of `10 ^ -places`. -/
def steps (places mantissa : Nat) (exponent : Int) : Nat :=
  Binary64.roundDiv (mantissa * Nat.pow 2 exponent.toNat * Nat.pow 10 places)
    (Nat.pow 2 (-exponent).toNat)

/-- A count of steps written with its point; short counts get leading zeros. -/
def pointed (places count : Nat) : List Char :=
  let digits := Nat.toDigits 10 count
  let padded := List.replicate (places + 1 - digits.length) '0' ++ digits
  let whole := padded.length - places
  padded.take whole ++ '.' :: padded.drop whole

def fixedText (places : Nat) (value : Float) : String :=
  match Binary64.ofFloat value with
  | .nan => "NaN"
  | .infinite negative => if negative then "-inf" else "inf"
  | .finite negative mantissa exponent =>
    let text := pointed places (steps places mantissa exponent)
    String.ofList (if negative then '-' :: text else text)

end ChatHub.Decimal
