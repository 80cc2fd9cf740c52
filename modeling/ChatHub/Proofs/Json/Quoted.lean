import ChatHub.Json.Quoted
/-!
Every text survives being quoted: scanning its spelling gives it back and stops behind the closing
quote. The spelling has no control characters, so it never ends a line.
-/

set_option autoImplicit false

namespace ChatHub.Json.Quoted

section Steps

variable {read text rest : List Char} {character : Char}

theorem scanFrom_quote : scanFrom read ('"' :: rest) = .ok (read.reverse, rest) := by
  rw [scanFrom.eq_def]
  rfl

theorem scanFrom_escape (escape : scanEscape text = .ok (character, rest)) :
    scanFrom read ('\\' :: text) = scanFrom (character :: read) rest := by
  rw [scanFrom.eq_def]
  simp only [Char.reduceEq, if_true, if_false]
  split
  · rename_i failed
    rw [escape] at failed
    cases failed
  · rename_i taken
    rw [escape] at taken
    cases taken
    rfl

theorem scanFrom_plain (noQuote : character ≠ '"') (noEscape : character ≠ '\\')
    (noControl : ¬character.toNat < 0x20) :
    scanFrom read (character :: rest) = scanFrom (character :: read) rest := by
  rw [scanFrom.eq_def]
  simp only [noQuote, noEscape, noControl, if_false]

end Steps

private theorem hexValue?_hexDigit : ∀ value < 16, hexValue? (hexDigit value) = some value := by
  decide

/-- The two digits of a control character, behind two zeros, give it back. -/
theorem scanUnicode_control {character : Char} (control : character.toNat < 0x20)
    (rest : List Char) :
    scanUnicode ('0' :: '0' :: hexDigit (character.toNat / 16) ::
      hexDigit (character.toNat % 16) :: rest) = .ok (character, rest) := by
  have upper := hexValue?_hexDigit (character.toNat / 16) (by omega)
  have lower := hexValue?_hexDigit (character.toNat % 16) (by omega)
  have value : hexValue4? '0' '0' (hexDigit (character.toNat / 16))
      (hexDigit (character.toNat % 16)) = some character.toNat := by
    have zero : hexValue? '0' = some 0 := by decide
    simp only [hexValue4?, zero, upper, lower, Option.bind_eq_bind, Option.bind_some,
      Option.pure_def, Option.some.injEq]
    omega
  have notTrailing : isTrailing character.toNat = false := by simp [isTrailing]; omega
  have notLeading : isLeading character.toNat = false := by simp [isLeading]; omega
  simp only [scanUnicode, scanHex, value, notTrailing, notLeading, Bool.false_eq_true, if_false,
    Char.ofNat_toNat]

/-- The letters that `encode` puts behind a backslash. -/
def shortLetters : List Char := ['"', '\\', 'b', 'f', 'n', 'r', 't']

/-- The three spellings of a character: an escape of one letter, the escape of a control
character by its number, and the character itself. -/
theorem encodeChar_cases (character : Char) :
    (∃ letter ∈ shortLetters, encodeChar character = ['\\', letter] ∧
      shortEscape? letter = some character) ∨
    (character.toNat < 0x20 ∧ encodeChar character =
      ['\\', 'u', '0', '0', hexDigit (character.toNat / 16), hexDigit (character.toNat % 16)]) ∨
    (encodeChar character = [character] ∧ character ≠ '"' ∧ character ≠ '\\' ∧
      ¬character.toNat < 0x20) := by
  unfold encodeChar
  split
  · exact .inl ⟨'"', by decide, rfl, congrArg some (Eq.symm ‹_›)⟩
  split
  · exact .inl ⟨'\\', by decide, rfl, congrArg some (Eq.symm ‹_›)⟩
  split
  · exact .inl ⟨'b', by decide, rfl, congrArg some (Eq.symm ‹_›)⟩
  split
  · exact .inl ⟨'f', by decide, rfl, congrArg some (Eq.symm ‹_›)⟩
  split
  · exact .inl ⟨'n', by decide, rfl, congrArg some (Eq.symm ‹_›)⟩
  split
  · exact .inl ⟨'r', by decide, rfl, congrArg some (Eq.symm ‹_›)⟩
  split
  · exact .inl ⟨'t', by decide, rfl, congrArg some (Eq.symm ‹_›)⟩
  split
  · exact .inr (.inl ⟨‹_›, rfl⟩)
  · exact .inr (.inr ⟨rfl, ‹_›, ‹_›, ‹_›⟩)

private theorem scanEscape_short {letter character : Char} (isShort : letter ∈ shortLetters)
    (escape : shortEscape? letter = some character) (rest : List Char) :
    scanEscape (letter :: rest) = .ok (character, rest) := by
  have notNumbered : letter ≠ 'u' := by
    rintro rfl
    exact absurd isShort (by decide)
  simp only [scanEscape, notNumbered, if_false, escape]

/-- Whatever its spelling, a character is read as itself. -/
theorem scanFrom_encodeChar (read : List Char) (character : Char) (rest : List Char) :
    scanFrom read (encodeChar character ++ rest) = scanFrom (character :: read) rest := by
  rcases encodeChar_cases character with
    ⟨letter, isShort, spelled, escape⟩ | ⟨control, spelled⟩ |
      ⟨spelled, noQuote, noEscape, noControl⟩
  · rw [spelled]
    exact scanFrom_escape (scanEscape_short isShort escape rest)
  · rw [spelled]
    exact scanFrom_escape (scanUnicode_control control rest)
  · rw [spelled]
    exact scanFrom_plain noQuote noEscape noControl

private theorem scanFrom_encode (read text rest : List Char) :
    scanFrom read (text.flatMap encodeChar ++ '"' :: rest) = .ok (read.reverse ++ text, rest) := by
  induction text generalizing read with
  | nil => simpa using scanFrom_quote
  | cons character later ih =>
    rw [List.flatMap_cons, List.append_assoc, scanFrom_encodeChar, ih]
    simp

/-- Behind its opening quote, a quoted text is scanned up to its closing quote. -/
theorem scan_encode (text rest : List Char) :
    scan (text.flatMap encodeChar ++ '"' :: rest) = .ok (text, rest) :=
  scanFrom_encode [] text rest

/-! ## No control characters -/

private theorem hexDigit_printable : ∀ value < 16, 0x20 ≤ (hexDigit value).toNat := by
  decide

private theorem shortLetters_printable {letter : Char} (isShort : letter ∈ shortLetters) :
    0x20 ≤ letter.toNat := by
  have all : (shortLetters.all fun letter => 0x20 ≤ letter.toNat) = true := by decide
  simpa using List.all_eq_true.mp all letter isShort

private theorem printable_of_mem_encodeChar {character spelled : Char}
    (member : spelled ∈ encodeChar character) : 0x20 ≤ spelled.toNat := by
  rcases encodeChar_cases character with
    ⟨letter, isShort, spelling, _⟩ | ⟨control, spelling⟩ | ⟨spelling, _, _, noControl⟩
  · rw [spelling, List.mem_cons, List.mem_singleton] at member
    rcases member with rfl | rfl
    · decide
    · exact shortLetters_printable isShort
  · have upper := hexDigit_printable (character.toNat / 16) (by omega)
    have lower := hexDigit_printable (character.toNat % 16) (by omega)
    simp only [spelling, List.mem_cons, List.not_mem_nil, or_false] at member
    rcases member with rfl | rfl | rfl | rfl | rfl | rfl
    · decide
    · decide
    · decide
    · decide
    · exact upper
    · exact lower
  · rw [spelling, List.mem_singleton] at member
    rw [member]
    omega

theorem printable_of_mem_encode {text : List Char} {spelled : Char}
    (member : spelled ∈ encode text) : 0x20 ≤ spelled.toNat := by
  simp only [encode, List.mem_cons, List.mem_append, List.mem_flatMap, List.not_mem_nil,
    or_false] at member
  rcases member with rfl | ⟨character, _, inSpelling⟩ | rfl
  · decide
  · exact printable_of_mem_encodeChar inSpelling
  · decide

end ChatHub.Json.Quoted
