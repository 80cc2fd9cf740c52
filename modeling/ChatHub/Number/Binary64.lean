/-!
The exact value of a double: a whole number times a power of two. Rounding to 53 significant bits
is stated on natural numbers, so that ranks and texts are computed without rounding errors of
their own.
-/

set_option autoImplicit false

namespace ChatHub

/-- What a double stands for. A finite one is `mantissa · 2 ^ exponent`. -/
inductive Binary64 where
  | nan
  | infinite (negative : Bool)
  | finite (negative : Bool) (mantissa : Nat) (exponent : Int)
  deriving DecidableEq, Repr

namespace Binary64

/-- Reads the three fields of a double. Numbers below the normal range share the least exponent. -/
def ofFloat (value : Float) : Binary64 :=
  let bits := value.toBits.toNat
  let negative := decide (Nat.pow 2 63 ≤ bits)
  let exponent : Nat := bits / Nat.pow 2 52 % Nat.pow 2 11
  let fraction := bits % Nat.pow 2 52
  if exponent = Nat.pow 2 11 - 1 then
    if fraction = 0 then .infinite negative else .nan
  else if exponent = 0 then .finite negative fraction (-1074)
  else .finite negative (Nat.pow 2 52 + fraction) ((exponent : Int) - 1075)

/-- A quotient rounded to the nearest whole number, a half to the even neighbour. -/
def roundDiv (numerator denominator : Nat) : Nat :=
  let whole := numerator / denominator
  let twice := 2 * (numerator % denominator)
  if twice < denominator then whole
  else if denominator < twice then whole + 1
  else if whole % 2 = 0 then whole else whole + 1

/-- A whole number rounded to 53 significant bits, a half to the even neighbour: what is left of
it when it is stored in a double. -/
def round (value : Nat) : Nat :=
  let excess := value.log2 - 52
  roundDiv value (Nat.pow 2 excess) * Nat.pow 2 excess

end Binary64

end ChatHub
