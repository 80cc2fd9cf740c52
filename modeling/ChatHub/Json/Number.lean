import ChatHub.Json.Failure
/-!
Numbers. `scan` is used where some other value was expected and the number found has to be named,
so it computes the value; `skip` only finds its end and knows no range.
-/

set_option autoImplicit false

namespace ChatHub.Json.Number

def digitValue (digit : Char) : Nat :=
  digit.toNat - '0'.toNat

/-- Takes digits into a significand as long as it stays below `2 ^ 64`; also counts the digits
taken. -/
def absorb (significand : Nat) : List Char → Nat × Nat
  | [] => (significand, 0)
  | digit :: rest =>
    let next := significand * 10 + digitValue digit
    if next < Nat.pow 2 64 then
      let absorbed := absorb next rest
      (absorbed.1, absorbed.2 + 1)
    else (significand, 0)

def powerOfTen (exponent : Nat) : Float :=
  Float.ofScientific 1 false exponent

/-- Divides by a power of ten in steps that each fit a double. -/
def scaleDown (value : Float) (exponent : Nat) : Float :=
  if exponent ≤ 308 then value / powerOfTen exponent
  else if value == 0.0 then value
  else scaleDown (value / powerOfTen 308) (exponent - 308)
termination_by exponent

/-- A significand times a power of ten, absent if it is too large. The two are converted one after
the other, so the last bit may differ from the nearest double. -/
def assemble (significand : Nat) (exponent : Int) : Option Float :=
  let value := significand.toUInt64.toFloat
  if exponent < 0 then some (scaleDown value exponent.natAbs)
  else if exponent ≤ 308 then
    let scaled := value * powerOfTen exponent.toNat
    if scaled.isInf then none else some scaled
  else if significand = 0 then some value
  else none

/-- The outcome of reading the digits of an exponent: their value, or the text behind the digit
at which it left the range of 32-bit integers. -/
inductive Exponent where
  | value (magnitude : Nat)
  | beyond (unread : List Char)

def readExponent (magnitude : Nat) : List Char → Exponent
  | [] => .value magnitude
  | digit :: rest =>
    if digit.isDigit then
      let next := magnitude * 10 + digitValue digit
      if next < Nat.pow 2 31 then readExponent next rest else .beyond rest
    else .value magnitude

def signed (negative : Bool) (value : Float) : Found :=
  .floating (if negative then -value else value)

/-- Finishes a floating point number at the end of its text. -/
def finish (negative : Bool) (significand : Nat) (exponent : Int) (unread : List Char) :
    Scan Found :=
  match assemble significand exponent with
  | some value => .ok (signed negative value, unread)
  | none => failHere .numberOutOfRange unread

def dropSign : List Char → List Char
  | '-' :: rest => rest
  | '+' :: rest => rest
  | text => text

theorem dropSign_length_le (text : List Char) : (dropSign text).length ≤ text.length := by
  unfold dropSign
  split <;> simp

/-- Reads an exponent from behind its letter. One that is too large makes the number zero or too
large. -/
def scanExponent (negative : Bool) (significand : Nat) (exponent : Int) (text : List Char) :
    Scan Found :=
  let downward := text.head? = some '-'
  let unsigned := dropSign text
  match unsigned with
  | [] => failHere .endOfValue []
  | first :: _ =>
    if first.isDigit then
      let unread := unsigned.dropWhile Char.isDigit
      match readExponent 0 unsigned with
      | .value magnitude =>
        finish negative significand
          (if downward then exponent - magnitude else exponent + magnitude) unread
      | .beyond rest =>
        if significand ≠ 0 && !downward then failHere .numberOutOfRange rest
        else .ok (signed negative 0.0, unread)
    else failAtNext .invalidNumber unsigned

/-- Reads what may follow a significand: an exponent, or nothing more. -/
def scanTail (negative : Bool) (significand : Nat) (exponent : Int) (text : List Char) :
    Scan Found :=
  match text with
  | 'e' :: rest => scanExponent negative significand exponent rest
  | 'E' :: rest => scanExponent negative significand exponent rest
  | _ => finish negative significand exponent text

/-- Reads the places behind a point. Places that no longer fit the significand are dropped. -/
def scanPlaces (negative : Bool) (significand : Nat) (exponent : Int) (text : List Char) :
    Scan Found :=
  let places := text.takeWhile Char.isDigit
  if places.isEmpty then
    if text.isEmpty then failHere .endOfValue [] else failAtNext .invalidNumber text
  else
    let absorbed := absorb significand places
    scanTail negative absorbed.1 (exponent - absorbed.2) (text.drop places.length)

/-- A number without point or exponent: whole if it fits 64 bits with its sign, where zero has
none. -/
def whole (negative : Bool) (significand : Nat) : Found :=
  if !negative then .integer significand
  else if 1 ≤ significand ∧ significand ≤ Nat.pow 2 63 then .integer (-significand)
  else signed true significand.toUInt64.toFloat

def scan (negative : Bool) (text : List Char) : Scan Found :=
  match text with
  | [] => failHere .endOfValue []
  | first :: rest =>
    if !first.isDigit then failAtNext .invalidNumber text
    else
      let digits := if first = '0' then [first] else text.takeWhile Char.isDigit
      let behind := text.drop digits.length
      if first = '0' && rest.head?.any Char.isDigit then failAtNext .invalidNumber rest
      else
        let absorbed := absorb 0 digits
        let exponent : Int := digits.length - absorbed.2
        match behind with
        | '.' :: places => scanPlaces negative absorbed.1 exponent places
        | 'e' :: rest => scanExponent negative absorbed.1 exponent rest
        | 'E' :: rest => scanExponent negative absorbed.1 exponent rest
        | _ =>
          if absorbed.2 = digits.length then .ok (whole negative absorbed.1, behind)
          else finish negative absorbed.1 exponent behind

def skipDigits (text : List Char) : Except Failure (List Char) :=
  if text.head?.any Char.isDigit then .ok (text.dropWhile Char.isDigit)
  else failAtNext .invalidNumber text

def skipExponent (text : List Char) : Except Failure (List Char) :=
  skipDigits (dropSign text)

def skipFraction (text : List Char) : Except Failure (List Char) :=
  match text with
  | '.' :: places =>
    match skipDigits places with
    | .error failure => .error failure
    | .ok ('e' :: rest) => skipExponent rest
    | .ok ('E' :: rest) => skipExponent rest
    | .ok rest => .ok rest
  | 'e' :: rest => skipExponent rest
  | 'E' :: rest => skipExponent rest
  | _ => .ok text

def skip (text : List Char) : Except Failure (List Char) :=
  match text with
  | [] => failHere .invalidNumber []
  | first :: rest =>
    if first = '0' then
      if rest.head?.any Char.isDigit then failAtNext .invalidNumber rest else skipFraction rest
    else if first.isDigit then skipFraction (rest.dropWhile Char.isDigit)
    else failAtNext .invalidNumber text

private theorem dropWhile_length_le (test : Char → Bool) (text : List Char) :
    (text.dropWhile test).length ≤ text.length :=
  (List.dropWhile_suffix test).length_le

theorem skipDigits_length_le {text rest : List Char}
    (skipped : skipDigits text = .ok rest) : rest.length ≤ text.length := by
  unfold skipDigits at skipped
  split at skipped
  · simp only [Except.ok.injEq] at skipped
    rw [← skipped]
    exact dropWhile_length_le _ _
  · simp [failAtNext] at skipped

theorem skipExponent_length_le {text rest : List Char}
    (skipped : skipExponent text = .ok rest) : rest.length ≤ text.length :=
  Nat.le_trans (skipDigits_length_le skipped) (dropSign_length_le text)

theorem skipFraction_length_le {text rest : List Char}
    (skipped : skipFraction text = .ok rest) : rest.length ≤ text.length := by
  unfold skipFraction at skipped
  split at skipped
  · split at skipped
    · simp at skipped
    · rename_i digits
      have outer := skipDigits_length_le digits
      have inner := skipExponent_length_le skipped
      simp only [List.length_cons] at outer ⊢
      omega
    · rename_i digits
      have outer := skipDigits_length_le digits
      have inner := skipExponent_length_le skipped
      simp only [List.length_cons] at outer ⊢
      omega
    · rename_i digits
      have outer := skipDigits_length_le digits
      simp only [Except.ok.injEq] at skipped
      simp only [← skipped, List.length_cons]
      omega
  · have shorter := skipExponent_length_le skipped
    simp only [List.length_cons]
    omega
  · have shorter := skipExponent_length_le skipped
    simp only [List.length_cons]
    omega
  · simp only [Except.ok.injEq] at skipped
    simp [skipped]

theorem skip_length_lt {text rest : List Char}
    (skipped : skip text = .ok rest) : rest.length < text.length := by
  unfold skip at skipped
  split at skipped
  · simp [failHere] at skipped
  · split at skipped
    · split at skipped
      · simp [failAtNext] at skipped
      · have shorter := skipFraction_length_le skipped
        simp only [List.length_cons]
        omega
    · split at skipped
      · rename_i tail _ _
        have shorter := skipFraction_length_le skipped
        have drops := dropWhile_length_le Char.isDigit tail
        simp only [List.length_cons]
        omega
      · simp [failAtNext] at skipped

end ChatHub.Json.Number
