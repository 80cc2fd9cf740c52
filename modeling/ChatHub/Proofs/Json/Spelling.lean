import ChatHub.Proofs.Json.Quoted
import ChatHub.Proofs.Text.Utf8
/-!
How strings may be spelled. `Spells` says which text between quotes stands for which string, and
`Closes` which texts are passed over as strings, where a lone surrogate is fine. Reading a string
takes exactly what spells one, passing over a string exactly what closes.
-/

set_option autoImplicit false

namespace ChatHub.Json

/-! ## Escapes -/

def lowerDigits : List Char := "0123456789abcdef".toList

def upperDigits : List Char := "0123456789ABCDEF".toList

/-- A hexadecimal digit in either case, with its value. -/
def IsHexDigit (digit : Char) (value : Nat) : Prop :=
  lowerDigits[value]? = some digit ∨ upperDigits[value]? = some digit

private theorem Quoted.hexValue?_eq_some_iff {digit : Char} {value : Nat} :
    Quoted.hexValue? digit = some value ↔ IsHexDigit digit value := by
  constructor
  · intro found
    have spelled : ∀ start place, start + place = digit.toNat →
        Char.ofNat (start + place) = digit := by
      intro start place same
      rw [same, Char.ofNat_toNat]
    have figures : ∀ place < 10, lowerDigits[place]? = some (Char.ofNat (48 + place)) := by decide
    have lower : ∀ place < 6, lowerDigits[place + 10]? = some (Char.ofNat (97 + place)) := by
      decide
    have upper : ∀ place < 6, upperDigits[place + 10]? = some (Char.ofNat (65 + place)) := by
      decide
    simp only [Quoted.hexValue?, Char.le_def, UInt32.le_iff_toNat_le, Char.toNat_val,
      Char.reduceToNat] at found
    split at found
    · cases found
      left
      rw [figures _ (by omega), spelled _ _ (by omega)]
    split at found
    · cases found
      left
      rw [lower _ (by omega), spelled _ _ (by omega)]
    split at found
    · cases found
      right
      rw [upper _ (by omega), spelled _ _ (by omega)]
    · cases found
  · have valued : ∀ digits ∈ [lowerDigits, upperDigits], ∀ place < 16,
        digits[place]?.bind Quoted.hexValue? = some place := by decide
    have inside : ∀ digits ∈ [lowerDigits, upperDigits], digits[value]? = some digit →
        Quoted.hexValue? digit = some value := by
      intro digits known found
      have short : ∀ digits ∈ [lowerDigits, upperDigits], digits.length = 16 := by decide
      have place := (List.getElem?_eq_some_iff.mp found).1
      rw [short digits known] at place
      have value := valued digits known _ place
      rwa [found, Option.bind_some] at value
    rintro (found | found)
    · exact inside lowerDigits (by simp) found
    · exact inside upperDigits (by simp) found

/-- Four hexadecimal digits in front of a text, and the number that they spell. -/
inductive SpellsUnit : List Char → Nat → List Char → Prop where
  | mk {first second third fourth : Char} {a b c d : Nat} {rest : List Char} :
      IsHexDigit first a → IsHexDigit second b → IsHexDigit third c → IsHexDigit fourth d →
      SpellsUnit (first :: second :: third :: fourth :: rest)
        (a * 0x1000 + b * 0x100 + c * 0x10 + d) rest

theorem Quoted.scanHex_eq_ok_iff {text rest : List Char} {unit : Nat} :
    Quoted.scanHex text = .ok (unit, rest) ↔ SpellsUnit text unit rest := by
  constructor
  · intro scanned
    unfold Quoted.scanHex at scanned
    split at scanned
    · split at scanned
      · rename_i value
        simp only [Quoted.hexValue4?, Option.bind_eq_bind, Option.bind_eq_some_iff,
          Option.pure_def, Option.some.injEq, Quoted.hexValue?_eq_some_iff] at value
        obtain ⟨a, isA, b, isB, c, isC, d, isD, rfl⟩ := value
        cases scanned
        have sum : ((a * 16 + b) * 16 + c) * 16 + d = a * 0x1000 + b * 0x100 + c * 0x10 + d := by
          omega
        rw [sum]
        exact .mk isA isB isC isD
      · cases scanned
    · split at scanned <;> cases scanned
  · rintro ⟨isA, isB, isC, isD⟩
    simp only [← Quoted.hexValue?_eq_some_iff] at isA isB isC isD
    simp only [Quoted.scanHex, Quoted.hexValue4?, isA, isB, isC, isD, Option.bind_eq_bind,
      Option.bind_some, Option.pure_def, Except.ok.injEq, Prod.mk.injEq, and_true]
    omega

/-- What a letter behind a backslash stands for. -/
def escapeLetters : List (Char × Char) :=
  [('"', '"'), ('\\', '\\'), ('/', '/'), ('b', '\x08'), ('f', '\x0c'), ('n', '\n'), ('r', '\r'),
    ('t', '\t')]

theorem Quoted.shortEscape?_eq_some_iff {letter character : Char} :
    Quoted.shortEscape? letter = some character ↔ (letter, character) ∈ escapeLetters := by
  constructor
  · intro found
    unfold Quoted.shortEscape? at found
    split at found <;> first | (cases found; decide) | cases found
  · intro listed
    have all : ∀ entry ∈ escapeLetters, Quoted.shortEscape? entry.1 = some entry.2 := by decide
    exact all _ listed

/-- An escape from behind its backslash, and the character that it stands for. Two units that form
a surrogate pair stand for one character, and a surrogate alone stands for none. -/
inductive SpellsEscape : List Char → Char → List Char → Prop where
  | letter {letter character : Char} {rest : List Char} :
      (letter, character) ∈ escapeLetters → SpellsEscape (letter :: rest) character rest
  | unit {character : Char} {text rest : List Char} :
      SpellsUnit text character.toNat rest → SpellsEscape ('u' :: text) character rest
  | pair {character : Char} {leading trailing : Nat} {text behind rest : List Char} :
      SpellsUnit text (0xD800 + leading) ('\\' :: 'u' :: behind) → leading < 0x400 →
      SpellsUnit behind (0xDC00 + trailing) rest → trailing < 0x400 →
      character.toNat = 0x10000 + leading * 0x400 + trailing →
      SpellsEscape ('u' :: text) character rest

theorem SpellsUnit.lt {text rest : List Char} {unit : Nat} (spelled : SpellsUnit text unit rest) :
    unit < 0x10000 := by
  have small : ∀ {digit value}, IsHexDigit digit value → value < 16 := by
    rintro digit value (found | found) <;> exact (List.getElem?_eq_some_iff.mp found).1
  obtain ⟨isA, isB, isC, isD⟩ := spelled
  have := small isA
  have := small isB
  have := small isC
  have := small isD
  omega

theorem Quoted.isLeading_iff {unit : Nat} :
    Quoted.isLeading unit = true ↔ 0xD800 ≤ unit ∧ unit < 0xDC00 := by
  simp [Quoted.isLeading]
  omega

theorem Quoted.isTrailing_iff {unit : Nat} :
    Quoted.isTrailing unit = true ↔ 0xDC00 ≤ unit ∧ unit < 0xE000 := by
  simp [Quoted.isTrailing]
  omega

private theorem Quoted.scanTrailing_eq_ok_iff {leading : Nat} {text rest : List Char}
    {character : Char} :
    Quoted.scanTrailing leading text = .ok (character, rest) ↔
      ∃ behind trailing, text = '\\' :: 'u' :: behind ∧ SpellsUnit behind trailing rest ∧
        Quoted.isTrailing trailing = true ∧ character = Quoted.ofPair leading trailing := by
  constructor
  · intro scanned
    unfold Quoted.scanTrailing at scanned
    split at scanned
    · cases scanned
    · split at scanned
      · cases scanned
      · split at scanned
        · cases scanned
        · rename_i hex
          split at scanned
          · rename_i trails
            simp only [Except.ok.injEq, Prod.mk.injEq] at scanned
            obtain ⟨isPair, rfl⟩ := scanned
            exact ⟨_, _, rfl, Quoted.scanHex_eq_ok_iff.mp hex, trails, isPair.symm⟩
          · cases scanned
      · cases scanned
    · cases scanned
  · rintro ⟨behind, trailing, rfl, spelled, isTrailing, isPair⟩
    simp only [Quoted.scanTrailing, Quoted.scanHex_eq_ok_iff.mpr spelled, isTrailing, if_true,
      isPair]

/-- Units are put together to the character that the pair stands for. -/
theorem Quoted.toNat_ofPair {leading trailing : Nat} (small : leading < 0x400)
    (short : trailing < 0x400) :
    (Quoted.ofPair (0xD800 + leading) (0xDC00 + trailing)).toNat =
      0x10000 + leading * 0x400 + trailing := by
  rw [Quoted.ofPair, Utf8.toNat_ofNat _ (.inr (by omega))]
  omega

private theorem Quoted.scanUnicode_eq_ok_iff {text rest : List Char} {character : Char} :
    Quoted.scanUnicode text = .ok (character, rest) ↔
      SpellsEscape ('u' :: text) character rest := by
  constructor
  · intro scanned
    unfold Quoted.scanUnicode at scanned
    split at scanned
    · cases scanned
    · rename_i unit behind hex
      have spelled := Quoted.scanHex_eq_ok_iff.mp hex
      have bound := spelled.lt
      split at scanned
      · cases scanned
      · rename_i notTrailing
        rw [Quoted.isTrailing_iff] at notTrailing
        split at scanned
        · rename_i leads
          rw [Quoted.isLeading_iff] at leads
          obtain ⟨text, trailing, rfl, second, trails, isPair⟩ :=
            Quoted.scanTrailing_eq_ok_iff.mp scanned
          rw [Quoted.isTrailing_iff] at trails
          obtain ⟨high, rfl⟩ := Nat.exists_eq_add_of_le leads.1
          obtain ⟨low, rfl⟩ := Nat.exists_eq_add_of_le trails.1
          have value := Quoted.toNat_ofPair (show high < 0x400 by omega) (show low < 0x400 by omega)
          rw [← isPair] at value
          exact .pair spelled (by omega) second (by omega) value
        · rename_i notLeading
          rw [Quoted.isLeading_iff] at notLeading
          cases scanned
          refine .unit ?_
          rwa [Utf8.toNat_ofNat _ (by omega)]
  · intro spelled
    cases spelled with
    | letter listed => exact absurd listed (by simp [escapeLetters])
    | unit spelled =>
      have scalar := Utf8.isScalar character
      have notTrailing : ¬Quoted.isTrailing character.toNat = true := by
        rw [Quoted.isTrailing_iff]
        omega
      have notLeading : ¬Quoted.isLeading character.toNat = true := by
        rw [Quoted.isLeading_iff]
        omega
      simp only [Quoted.scanUnicode, Quoted.scanHex_eq_ok_iff.mpr spelled, if_neg notTrailing,
        if_neg notLeading, Char.ofNat_toNat]
    | @pair _ leading trailing _ behind _ first small second short value =>
      have notTrailing : ¬Quoted.isTrailing (0xD800 + leading) = true := by
        rw [Quoted.isTrailing_iff]
        omega
      have isLeading : Quoted.isLeading (0xD800 + leading) = true := by
        rw [Quoted.isLeading_iff]
        omega
      have isTrailing : Quoted.isTrailing (0xDC00 + trailing) = true := by
        rw [Quoted.isTrailing_iff]
        omega
      have isPair : character = Quoted.ofPair (0xD800 + leading) (0xDC00 + trailing) :=
        Char.toNat_inj.mp (value.trans (Quoted.toNat_ofPair small short).symm)
      simp only [Quoted.scanUnicode, Quoted.scanHex_eq_ok_iff.mpr first, if_neg notTrailing,
        isLeading, if_true]
      exact Quoted.scanTrailing_eq_ok_iff.mpr ⟨behind, _, rfl, second, isTrailing, isPair⟩

private theorem Quoted.scanEscape_eq_ok_iff {text rest : List Char} {character : Char} :
    Quoted.scanEscape text = .ok (character, rest) ↔ SpellsEscape text character rest := by
  cases text with
  | nil =>
    constructor
    · intro scanned
      cases scanned
    · intro spelled
      cases spelled
  | cons letter behind =>
    by_cases numbered : letter = 'u'
    · subst numbered
      simp only [Quoted.scanEscape, if_true]
      exact Quoted.scanUnicode_eq_ok_iff
    · simp only [Quoted.scanEscape, if_neg numbered]
      constructor
      · intro scanned
        split at scanned
        · rename_i short
          cases scanned
          exact .letter (Quoted.shortEscape?_eq_some_iff.mp short)
        · cases scanned
      · intro spelled
        cases spelled with
        | letter listed => simp only [Quoted.shortEscape?_eq_some_iff.mpr listed]
        | unit => exact absurd rfl numbered
        | pair => exact absurd rfl numbered

/-! ## Strings -/

/-- A string from behind its opening quote up to behind its closing quote, and what it says. -/
inductive Spells : List Char → List Char → List Char → Prop where
  | done {rest : List Char} : Spells ('"' :: rest) [] rest
  | plain {character : Char} {text content rest : List Char} :
      character ≠ '"' → character ≠ '\\' → 0x20 ≤ character.toNat → Spells text content rest →
      Spells (character :: text) (character :: content) rest
  | escape {character : Char} {text behind content rest : List Char} :
      SpellsEscape text character behind → Spells behind content rest →
      Spells ('\\' :: text) (character :: content) rest

/-- A string that nobody asked for. Its escapes have to be complete, but need not stand for a
character. -/
inductive Closes : List Char → List Char → Prop where
  | done {rest : List Char} : Closes ('"' :: rest) rest
  | plain {character : Char} {text rest : List Char} :
      character ≠ '"' → character ≠ '\\' → 0x20 ≤ character.toNat → Closes text rest →
      Closes (character :: text) rest
  | letter {letter character : Char} {text rest : List Char} :
      (letter, character) ∈ escapeLetters → Closes text rest →
      Closes ('\\' :: letter :: text) rest
  | unit {unit : Nat} {text behind rest : List Char} :
      SpellsUnit text unit behind → Closes behind rest → Closes ('\\' :: 'u' :: text) rest

private theorem Quoted.scanFrom_eq_ok_iff {read text string rest : List Char} :
    Quoted.scanFrom read text = .ok (string, rest) ↔
      ∃ content, string = read.reverse ++ content ∧ Spells text content rest := by
  constructor
  · intro scanned
    fun_induction Quoted.scanFrom read text with
    | case1 => cases scanned
    | case2 =>
      cases scanned
      exact ⟨[], (List.append_nil _).symm, .done⟩
    | case3 => cases scanned
    | case4 read _ escaped behind taken _ ih =>
      obtain ⟨content, rfl, spelled⟩ := ih scanned
      exact ⟨escaped :: content, by simp, .escape (Quoted.scanEscape_eq_ok_iff.mp taken) spelled⟩
    | case5 => cases scanned
    | case6 read character _ noQuote noEscape noControl ih =>
      obtain ⟨content, rfl, spelled⟩ := ih scanned
      exact ⟨character :: content, by simp,
        .plain noQuote noEscape (Nat.not_lt.mp noControl) spelled⟩
  · rintro ⟨content, rfl, spelled⟩
    induction spelled generalizing read with
    | done => rw [List.append_nil, Quoted.scanFrom_quote]
    | plain noQuote noEscape noControl _ ih =>
      rw [Quoted.scanFrom_plain noQuote noEscape (Nat.not_lt.mpr noControl), ih]
      simp
    | escape escape _ ih =>
      rw [Quoted.scanFrom_escape (Quoted.scanEscape_eq_ok_iff.mpr escape), ih]
      simp

/-- Scanning a string takes what spells one, and gives what it says. -/
theorem Quoted.scan_eq_ok_iff {text string rest : List Char} :
    Quoted.scan text = .ok (string, rest) ↔ Spells text string rest := by
  simp [Quoted.scan, Quoted.scanFrom_eq_ok_iff]

private theorem Quoted.skipEscape_eq_ok_iff {text rest : List Char} :
    Quoted.skipEscape text = .ok rest ↔
      (∃ letter character, text = letter :: rest ∧ (letter, character) ∈ escapeLetters) ∨
        ∃ digits unit, text = 'u' :: digits ∧ SpellsUnit digits unit rest := by
  constructor
  · intro skipped
    unfold Quoted.skipEscape at skipped
    split at skipped
    · cases skipped
    · rename_i letter behind
      split at skipped
      · rename_i numbered
        subst numbered
        split at skipped
        · cases skipped
        · rename_i hex
          cases skipped
          exact .inr ⟨_, _, rfl, Quoted.scanHex_eq_ok_iff.mp hex⟩
      · split at skipped
        · rename_i short
          cases skipped
          exact .inl ⟨_, _, rfl, Quoted.shortEscape?_eq_some_iff.mp short⟩
        · cases skipped
  · rintro (⟨letter, character, rfl, listed⟩ | ⟨digits, unit, rfl, spelled⟩)
    · have notNumbered : letter ≠ 'u' := by
        rintro rfl
        exact absurd listed (by simp [escapeLetters])
      simp only [Quoted.skipEscape, if_neg notNumbered, Quoted.shortEscape?_eq_some_iff.mpr listed]
    · simp only [Quoted.skipEscape, if_true, Quoted.scanHex_eq_ok_iff.mpr spelled]

theorem Quoted.skip_eq_ok_iff {text rest : List Char} :
    Quoted.skip text = .ok rest ↔ Closes text rest := by
  constructor
  · intro skipped
    fun_induction Quoted.skip text with
    | case1 => cases skipped
    | case2 =>
      cases skipped
      exact .done
    | case3 => cases skipped
    | case4 _ behind taken _ ih =>
      rcases Quoted.skipEscape_eq_ok_iff.mp taken with
        ⟨letter, character, rfl, listed⟩ | ⟨digits, unit, rfl, spelled⟩
      · exact .letter listed (ih skipped)
      · exact .unit spelled (ih skipped)
    | case5 => cases skipped
    | case6 character _ noQuote noEscape noControl ih =>
      exact .plain noQuote noEscape (Nat.not_lt.mp noControl) (ih skipped)
  · intro closes
    have escaped : ∀ {text behind}, Quoted.skipEscape text = .ok behind →
        Quoted.skip ('\\' :: text) = Quoted.skip behind := by
      intro text behind taken
      rw [Quoted.skip.eq_def]
      grind
    induction closes with
    | done =>
      rw [Quoted.skip.eq_def]
      rfl
    | plain noQuote noEscape noControl _ ih =>
      rw [Quoted.skip.eq_def]
      simp only [noQuote, noEscape, Nat.not_lt.mpr noControl, if_false]
      exact ih
    | letter listed _ ih =>
      exact (escaped (Quoted.skipEscape_eq_ok_iff.mpr (.inl ⟨_, _, rfl, listed⟩))).trans ih
    | unit spelled _ ih =>
      exact (escaped (Quoted.skipEscape_eq_ok_iff.mpr (.inr ⟨_, _, rfl, spelled⟩))).trans ih

section Behind

variable {text rest content : List Char}

/-! What stands behind a string has no part in it. -/

theorem SpellsUnit.append {unit : Nat} (spelled : SpellsUnit text unit rest) (more : List Char) :
    SpellsUnit (text ++ more) unit (rest ++ more) := by
  obtain ⟨isA, isB, isC, isD⟩ := spelled
  exact .mk isA isB isC isD

theorem SpellsEscape.append {character : Char} (spelled : SpellsEscape text character rest)
    (more : List Char) : SpellsEscape (text ++ more) character (rest ++ more) := by
  cases spelled with
  | letter listed => exact .letter listed
  | unit spelled => exact .unit (spelled.append more)
  | pair first small second short value =>
    exact .pair (first.append more) small (second.append more) short value

theorem Spells.append (spelled : Spells text content rest) (more : List Char) :
    Spells (text ++ more) content (rest ++ more) := by
  induction spelled with
  | done => exact .done
  | plain noQuote noEscape noControl _ ih => exact .plain noQuote noEscape noControl ih
  | escape escape _ ih => exact .escape (escape.append more) ih

theorem Closes.append (closes : Closes text rest) (more : List Char) :
    Closes (text ++ more) (rest ++ more) := by
  induction closes with
  | done => exact .done
  | plain noQuote noEscape noControl _ ih => exact .plain noQuote noEscape noControl ih
  | letter listed _ ih => exact .letter listed ih
  | unit spelled _ ih => exact .unit (spelled.append more) ih

/-- A string says one thing only. -/
theorem Spells.unique {other : List Char} {behind : List Char} (first : Spells text content rest)
    (second : Spells text other behind) : content = other ∧ rest = behind := by
  have same := (Quoted.scan_eq_ok_iff.mpr first).symm.trans (Quoted.scan_eq_ok_iff.mpr second)
  simpa using same

/-! A string stands in front of the text that is left. -/

theorem SpellsUnit.exists_front {unit : Nat} (spelled : SpellsUnit text unit rest) :
    ∃ front, text = front ++ rest ∧ SpellsUnit front unit [] := by
  obtain ⟨isA, isB, isC, isD⟩ := spelled
  exact ⟨[_, _, _, _], rfl, .mk isA isB isC isD⟩

theorem SpellsEscape.exists_front {character : Char}
    (spelled : SpellsEscape text character rest) :
    ∃ front, text = front ++ rest ∧ SpellsEscape front character [] := by
  cases spelled with
  | letter listed => exact ⟨[_], rfl, .letter listed⟩
  | unit spelled =>
    obtain ⟨front, rfl, alone⟩ := spelled.exists_front
    exact ⟨'u' :: front, rfl, .unit alone⟩
  | pair first small second short value =>
    obtain ⟨leading, rfl, alone⟩ := first.exists_front
    obtain ⟨trailing, rfl, last⟩ := second.exists_front
    exact ⟨'u' :: (leading ++ '\\' :: 'u' :: trailing), by simp,
      .pair (alone.append _) small last short value⟩

theorem Spells.exists_front (spelled : Spells text content rest) :
    ∃ front, text = front ++ rest ∧ Spells front content [] := by
  induction spelled with
  | done => exact ⟨['"'], rfl, .done⟩
  | plain noQuote noEscape noControl _ ih =>
    obtain ⟨front, rfl, alone⟩ := ih
    exact ⟨_ :: front, rfl, .plain noQuote noEscape noControl alone⟩
  | escape escape _ ih =>
    obtain ⟨front, rfl, alone⟩ := ih
    obtain ⟨letters, rfl, spelled⟩ := escape.exists_front
    exact ⟨'\\' :: (letters ++ front), by simp, .escape (spelled.append front) alone⟩

theorem SpellsEscape.closes {character : Char} (spelled : SpellsEscape text character rest)
    {behind : List Char} (closes : Closes rest behind) : Closes ('\\' :: text) behind := by
  cases spelled with
  | letter listed => exact .letter listed closes
  | unit spelled => exact .unit spelled closes
  | pair first _ second _ _ => exact .unit first (.unit second closes)

/-- Whatever says something has an end. -/
theorem Spells.closes (spelled : Spells text content rest) : Closes text rest := by
  induction spelled with
  | done => exact .done
  | plain noQuote noEscape noControl _ ih => exact .plain noQuote noEscape noControl ih
  | escape escape _ ih => exact escape.closes ih

theorem Closes.suffix (closes : Closes text rest) : rest <:+ text := by
  induction closes with
  | done => exact List.suffix_cons _ _
  | plain _ _ _ _ ih => exact ih.trans (List.suffix_cons _ _)
  | letter _ _ ih => exact ih.trans ((List.suffix_cons _ _).trans (List.suffix_cons _ _))
  | unit spelled _ ih =>
    obtain ⟨front, rfl, -⟩ := spelled.exists_front
    exact ih.trans ((List.suffix_append _ _).trans
      ((List.suffix_cons _ _).trans (List.suffix_cons _ _)))

end Behind

end ChatHub.Json
