import ChatHub.Json.Failure
/-!
Strings between quotes. `encode` escapes quotes, backslashes and control characters and nothing
else; `scan` reads every spelling of a string and insists on paired surrogates, `skip` only finds
its end.
-/

set_option autoImplicit false

namespace ChatHub.Json.Quoted

def hexDigit (value : Nat) : Char :=
  if value < 10 then Char.ofNat ('0'.toNat + value) else Char.ofNat ('a'.toNat + value - 10)

def encodeChar (character : Char) : List Char :=
  if character = '"' then ['\\', '"']
  else if character = '\\' then ['\\', '\\']
  else if character = '\x08' then ['\\', 'b']
  else if character = '\x0c' then ['\\', 'f']
  else if character = '\n' then ['\\', 'n']
  else if character = '\r' then ['\\', 'r']
  else if character = '\t' then ['\\', 't']
  else if character.toNat < 0x20 then
    ['\\', 'u', '0', '0', hexDigit (character.toNat / 16), hexDigit (character.toNat % 16)]
  else [character]

def encode (text : List Char) : List Char :=
  '"' :: (text.flatMap encodeChar ++ ['"'])

def hexValue? (character : Char) : Option Nat :=
  if '0' ≤ character ∧ character ≤ '9' then some (character.toNat - '0'.toNat)
  else if 'a' ≤ character ∧ character ≤ 'f' then some (character.toNat - 'a'.toNat + 10)
  else if 'A' ≤ character ∧ character ≤ 'F' then some (character.toNat - 'A'.toNat + 10)
  else none

def hexValue4? (first second third fourth : Char) : Option Nat := do
  let first ← hexValue? first
  let second ← hexValue? second
  let third ← hexValue? third
  let fourth ← hexValue? fourth
  return ((first * 16 + second) * 16 + third) * 16 + fourth

/-- The four digits behind `\u`. Four bytes are taken at once: if they are not all there the
string has no end, and if they are not all digits the place is behind the fourth. -/
def scanHex (text : List Char) : Scan Nat :=
  match text with
  | first :: second :: third :: fourth :: rest =>
    match hexValue4? first second third fourth with
    | some value => .ok (value, rest)
    | none => .error ⟨.invalidEscape, text, 4⟩
  | _ =>
    if Utf8.size text < 4 then failHere .endOfString []
    else .error ⟨.invalidEscape, text, 4⟩

def isLeading (unit : Nat) : Bool :=
  0xD800 ≤ unit && unit ≤ 0xDBFF

def isTrailing (unit : Nat) : Bool :=
  0xDC00 ≤ unit && unit ≤ 0xDFFF

def ofPair (leading trailing : Nat) : Char :=
  Char.ofNat (0x10000 + (leading - 0xD800) * 0x400 + (trailing - 0xDC00))

/-- The second half of a surrogate pair, which has to follow as an escape of its own. -/
def scanTrailing (leading : Nat) (text : List Char) : Scan Char :=
  match text with
  | [] => failHere .endOfString []
  | '\\' :: rest =>
    match rest with
    | [] => failHere .endOfString []
    | 'u' :: digits =>
      match scanHex digits with
      | .error failure => .error failure
      | .ok (trailing, rest) =>
        if isTrailing trailing then .ok (ofPair leading trailing, rest)
        else failHere .loneSurrogate rest
    | _ => failAtNext .endOfHexEscape rest
  | _ => failAtNext .endOfHexEscape text

def scanUnicode (text : List Char) : Scan Char :=
  match scanHex text with
  | .error failure => .error failure
  | .ok (unit, rest) =>
    if isTrailing unit then failHere .loneSurrogate rest
    else if isLeading unit then scanTrailing unit rest
    else .ok (Char.ofNat unit, rest)

def shortEscape? (letter : Char) : Option Char :=
  match letter with
  | '"' => some '"'
  | '\\' => some '\\'
  | '/' => some '/'
  | 'b' => some '\x08'
  | 'f' => some '\x0c'
  | 'n' => some '\n'
  | 'r' => some '\r'
  | 't' => some '\t'
  | _ => none

/-- The character of an escape, from behind the backslash. -/
def scanEscape (text : List Char) : Scan Char :=
  match text with
  | [] => failHere .endOfString []
  | letter :: rest =>
    if letter = 'u' then scanUnicode rest
    else
      match shortEscape? letter with
      | some character => .ok (character, rest)
      | none => failAtNext .invalidEscape text

def skipEscape (text : List Char) : Except Failure (List Char) :=
  match text with
  | [] => failHere .endOfString []
  | letter :: rest =>
    if letter = 'u' then
      match scanHex rest with
      | .error failure => .error failure
      | .ok (_, rest) => .ok rest
    else
      match shortEscape? letter with
      | some _ => .ok rest
      | none => failAtNext .invalidEscape text

theorem scanHex_length_lt {text rest : List Char} {value : Nat}
    (read : scanHex text = .ok (value, rest)) : rest.length < text.length := by
  unfold scanHex at read
  split at read
  · split at read
    · simp only [Except.ok.injEq, Prod.mk.injEq] at read
      simp only [← read.2, List.length_cons]
      omega
    · simp at read
  · split at read <;> simp [failHere] at read

theorem scanTrailing_length_lt {leading : Nat} {text rest : List Char} {character : Char}
    (read : scanTrailing leading text = .ok (character, rest)) : rest.length < text.length := by
  unfold scanTrailing at read
  repeat' split at read
  all_goals simp only [failHere, failAtNext, reduceCtorEq, Except.ok.injEq, Prod.mk.injEq] at read
  have shorter := scanHex_length_lt ‹_›
  simp only [← read.2, List.length_cons]
  omega

theorem scanUnicode_length_lt {text rest : List Char} {character : Char}
    (read : scanUnicode text = .ok (character, rest)) : rest.length < text.length := by
  unfold scanUnicode at read
  split at read
  · simp at read
  · rename_i hex
    have shorter := scanHex_length_lt hex
    split at read
    · simp [failHere] at read
    · split at read
      · have tail := scanTrailing_length_lt read
        omega
      · simp only [Except.ok.injEq, Prod.mk.injEq] at read
        simpa only [← read.2] using shorter

theorem scanEscape_length_lt {text rest : List Char} {character : Char}
    (read : scanEscape text = .ok (character, rest)) : rest.length < text.length := by
  unfold scanEscape at read
  split at read
  · simp [failHere] at read
  · split at read
    · have shorter := scanUnicode_length_lt read
      simp only [List.length_cons]
      omega
    · split at read
      · simp only [Except.ok.injEq, Prod.mk.injEq] at read
        simp [← read.2]
      · simp [failAtNext] at read

theorem skipEscape_length_lt {text rest : List Char}
    (read : skipEscape text = .ok rest) : rest.length < text.length := by
  unfold skipEscape at read
  split at read
  · simp [failHere] at read
  · split at read
    · split at read
      · simp at read
      · rename_i hex
        have shorter := scanHex_length_lt hex
        simp only [Except.ok.injEq] at read
        simp only [← read, List.length_cons]
        omega
    · split at read
      · simp only [Except.ok.injEq] at read
        simp [← read]
      · simp [failAtNext] at read

/-- Reads a string from behind its opening quote; `read` holds the characters so far, latest
first. -/
def scanFrom (read : List Char) (text : List Char) : Scan (List Char) :=
  match text with
  | [] => failHere .endOfString []
  | character :: rest =>
    if character = '"' then .ok (read.reverse, rest)
    else if character = '\\' then
      match _taken : scanEscape rest with
      | .error failure => .error failure
      | .ok (escaped, rest) => scanFrom (escaped :: read) rest
    else if character.toNat < 0x20 then failAtNext .controlCharacter text
    else scanFrom (character :: read) rest
termination_by text.length
decreasing_by
  · have := scanEscape_length_lt _taken
    simp only [List.length_cons]
    omega
  · simp

def scan (text : List Char) : Scan (List Char) :=
  scanFrom [] text

def skip (text : List Char) : Except Failure (List Char) :=
  match text with
  | [] => failHere .endOfString []
  | character :: rest =>
    if character = '"' then .ok rest
    else if character = '\\' then
      match _taken : skipEscape rest with
      | .error failure => .error failure
      | .ok rest => skip rest
    else if character.toNat < 0x20 then failHere .controlCharacter text
    else skip rest
termination_by text.length
decreasing_by
  · have := skipEscape_length_lt _taken
    simp only [List.length_cons]
    omega
  · simp

theorem scanFrom_length_lt {read text rest string : List Char}
    (scanned : scanFrom read text = .ok (string, rest)) : rest.length < text.length := by
  fun_induction scanFrom read text with
  | case1 => simp [failHere] at scanned
  | case2 => simp only [Except.ok.injEq, Prod.mk.injEq] at scanned; simp [← scanned.2]
  | case3 => simp at scanned
  | case4 _ _ _ _ taken _ ih =>
    have inner := ih scanned
    have outer := scanEscape_length_lt taken
    simp only [List.length_cons]
    omega
  | case5 => simp [failAtNext] at scanned
  | case6 _ _ _ _ _ _ ih =>
    have inner := ih scanned
    simp only [List.length_cons]
    omega

theorem scan_length_lt {text rest string : List Char}
    (scanned : scan text = .ok (string, rest)) : rest.length < text.length :=
  scanFrom_length_lt scanned

theorem skip_length_lt {text rest : List Char}
    (skipped : skip text = .ok rest) : rest.length < text.length := by
  fun_induction skip text with
  | case1 => simp [failHere] at skipped
  | case2 => simp only [Except.ok.injEq] at skipped; simp [← skipped]
  | case3 => simp at skipped
  | case4 _ _ taken _ ih =>
    have inner := ih skipped
    have outer := skipEscape_length_lt taken
    simp only [List.length_cons]
    omega
  | case5 => simp [failHere] at skipped
  | case6 _ _ _ _ _ ih =>
    have inner := ih skipped
    simp only [List.length_cons]
    omega

end ChatHub.Json.Quoted
