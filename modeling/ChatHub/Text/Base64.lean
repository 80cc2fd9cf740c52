/-!
Bytes as text over sixty-four characters: three bytes become four characters, and equals signs
fill up what the last group lacks.
-/

set_option autoImplicit false

namespace ChatHub.Base64

/-- The character for a value below sixty-four. -/
def letter (value : Nat) : Char :=
  if value < 26 then Char.ofNat ('A'.toNat + value)
  else if value < 52 then Char.ofNat ('a'.toNat + (value - 26))
  else if value < 62 then Char.ofNat ('0'.toNat + (value - 52))
  else if value = 62 then '+'
  else '/'

/-- The first `count` of the four characters for a number of twenty-four bits. -/
def group (count value : Nat) : List Char :=
  ([value / 262144, value / 4096 % 64, value / 64 % 64, value % 64].take count).map letter

def encode : List UInt8 → List Char
  | [] => []
  | [first] => group 2 (first.toNat * 65536) ++ ['=', '=']
  | [first, second] => group 3 (first.toNat * 65536 + second.toNat * 256) ++ ['=']
  | first :: second :: third :: rest =>
    group 4 (first.toNat * 65536 + second.toNat * 256 + third.toNat) ++ encode rest

end ChatHub.Base64
