import ChatHub.Number.Binary64
/-!
The shortest decimal that reads back as a given double, and its text. Of the decimals with the
least number of digits inside the interval of reals that round to the double, the nearest is
taken; everything is compared in exact whole-number arithmetic.
-/

set_option autoImplicit false

namespace ChatHub.Decimal

/-- A positive decimal in scientific form: the digits with a point after the first, times ten to
the `exponent`. -/
structure Scientific where
  digits : List Char
  exponent : Int
  deriving DecidableEq, Repr

/-- How often ten divides into the value before it falls below one. -/
private def wholeExponent (value : Nat) : Nat :=
  (Nat.toDigits 10 value).length - 1

/-- How many powers of ten lift `numerator / denominator` to at least one, searched up to a
bound. -/
private def liftExponent (denominator : Nat) : Nat → Nat → Nat
  | _, 0 => 0
  | numerator, bound + 1 =>
    if denominator ≤ numerator then 0
    else liftExponent denominator (10 * numerator) bound + 1

/-- The exponent of the leading digit of a positive quotient. -/
def leadingExponent (numerator denominator : Nat) : Int :=
  if denominator ≤ numerator then wholeExponent (numerator / denominator)
  else -(liftExponent denominator numerator 400 : Int)

/-- The reals that round to a double, as numerators over one denominator: the value itself, and
the ends, which belong to the interval when the mantissa is even. -/
structure Interval where
  low : Nat
  value : Nat
  high : Nat
  denominator : Nat
  closed : Bool
  deriving DecidableEq, Repr

/-- The interval of a positive double. Below a power of two the neighbour is half as far away,
except at the bottom of the range. -/
def interval (mantissa : Nat) (exponent : Int) : Interval :=
  let nearer := mantissa = Nat.pow 2 52 ∧ exponent ≠ -1074
  let scale := Nat.pow 2 (exponent - 2).toNat
  { low := (4 * mantissa - (if nearer then 1 else 2)) * scale
    value := 4 * mantissa * scale
    high := (4 * mantissa + 2) * scale
    denominator := Nat.pow 2 (2 - exponent).toNat
    closed := mantissa % 2 = 0 }

private def Interval.holds (bounds : Interval) (step unit multiple : Nat) : Bool :=
  let point := multiple * step * bounds.denominator
  if bounds.closed then bounds.low * unit ≤ point && point ≤ bounds.high * unit
  else bounds.low * unit < point && point < bounds.high * unit

/-- The point of one decimal grid inside the interval that is nearest to the value. Only the two
neighbours of the value are tried; a tie goes to the even one. -/
private def Interval.onGrid? (bounds : Interval) (step unit : Nat) : Option Nat :=
  let below := bounds.value * unit / (step * bounds.denominator)
  let nearest := Binary64.roundDiv (bounds.value * unit) (step * bounds.denominator)
  let other := if nearest = below then below + 1 else below
  if bounds.holds step unit nearest then some nearest
  else if bounds.holds step unit other then some other
  else none

/-- The first grid with a hit, from one digit on; `leading` is the exponent of the first digit and
`count` the number of digits after it. -/
private def search (bounds : Interval) (leading : Int) : Nat → Nat → Nat × Int
  | _, 0 => (0, 0)
  | count, bound + 1 =>
    let spacing := leading - count
    match bounds.onGrid? (Nat.pow 10 spacing.toNat) (Nat.pow 10 (-spacing).toNat) with
    | some multiple => (multiple, spacing)
    | none => search bounds leading (count + 1) bound

private def dropZeros (digits : List Char) : List Char :=
  (digits.reverse.dropWhile (· == '0')).reverse

/-- The shortest decimal of a positive double. Seventeen digits always suffice. -/
def shortest (mantissa : Nat) (exponent : Int) : Scientific :=
  let bounds := interval mantissa exponent
  let found := search bounds (leadingExponent bounds.value bounds.denominator) 0 18
  let digits := Nat.toDigits 10 found.1
  ⟨dropZeros digits, found.2 + (digits.length - 1 : Nat)⟩

/-- Positional notation ends where the leading digit stands for less than `10 ^ least` or more
than `10 ^ greatest`. -/
structure Layout where
  least : Int := -5
  greatest : Int := 15

/-- Writes a decimal: positional with at least one place, or with a signed exponent behind `e`. -/
def Scientific.render (layout : Layout) (decimal : Scientific) : List Char :=
  let digits := decimal.digits
  if layout.least ≤ decimal.exponent ∧ decimal.exponent ≤ layout.greatest then
    if decimal.exponent < 0 then
      ['0', '.'] ++ List.replicate (-decimal.exponent - 1).toNat '0' ++ digits
    else
      let whole := decimal.exponent.toNat + 1
      let places := digits.drop whole
      digits.take whole ++ List.replicate (whole - digits.length) '0' ++ ['.']
        ++ (if places.isEmpty then ['0'] else places)
  else
    let places := digits.drop 1
    digits.take 1 ++ (if places.isEmpty then [] else '.' :: places) ++ ['e']
      ++ (if decimal.exponent < 0 then ['-'] else ['+'])
      ++ Nat.toDigits 10 decimal.exponent.natAbs

/-- The text of a finite double, absent for the others. Zero keeps its sign. -/
def shortestText? (value : Float) : Option String :=
  match Binary64.ofFloat value with
  | .finite negative mantissa exponent =>
    let text :=
      if mantissa = 0 then ['0', '.', '0']
      else (shortest mantissa exponent).render {}
    some (String.ofList (if negative then '-' :: text else text))
  | _ => none

end ChatHub.Decimal
