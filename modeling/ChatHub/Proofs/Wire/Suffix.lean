import ChatHub.Proofs.Wire.Partition
/-!
No end of a line is a message of its own, wherever the line is cut. A record begins with a bracket,
and behind the first character of a record every bracket stands inside a value. Behind such a
bracket only text that was escaped can follow, and then a quote that opens what was to be closed.
Main statement: `readPiece_suffix`.
-/

set_option autoImplicit false

namespace ChatHub.Wire

open Json

/-! ## Brackets inside values -/

/-- The characters that a record can begin with. -/
def isOpening (character : Char) : Bool :=
  character == '\x7b' || character == '['

private theorem isOpening_iff {character : Char} :
    isOpening character = true ↔ character = '\x7b' ∨ character = '[' := by
  simp [isOpening]

/-- What can stand behind the closing quote of a value: the end of the object, or a comma and the
name of the next field. -/
inductive EndsValue : List Char → Prop
  | last : EndsValue ['\x7d']
  | next (letter : Char) (rest : List Char) :
      letter.isAlpha = true → EndsValue (',' :: '"' :: letter :: rest)

/-- Every opening bracket of a text stands inside a value. -/
def Enclosed (text : List Char) : Prop :=
  ∀ front bracket rest, text = front ++ bracket :: rest → isOpening bracket = true →
    ∃ (value behind : List Char),
      rest = value.flatMap Quoted.encodeChar ++ '"' :: behind ∧ EndsValue behind

section Enclosed

variable {front text behind : List Char}

theorem Enclosed.append (plain : ∀ character ∈ front, ¬isOpening character = true)
    (enclosed : Enclosed text) : Enclosed (front ++ text) := by
  intro start bracket rest whole opening
  rcases List.append_eq_append_iff.mp whole with ⟨further, rfl, later⟩ | ⟨further, rfl, later⟩
  · exact enclosed further bracket rest later opening
  · cases further with
    | nil => exact enclosed [] bracket rest later.symm opening
    | cons first others =>
      obtain ⟨rfl, rfl⟩ := List.cons.inj later
      have notOpening := plain bracket (List.mem_append_right start List.mem_cons_self)
      exact absurd opening notOpening

private theorem encodeChar_plain (character : Char) :
    Quoted.encodeChar character = [character] ∨
      ∀ spelled ∈ Quoted.encodeChar character, ¬isOpening spelled = true := by
  have letters : (Quoted.shortLetters.all fun letter => !isOpening letter) = true := by decide
  have digits : ∀ value < 16, ¬isOpening (Quoted.hexDigit value) = true := by decide
  rcases Quoted.encodeChar_cases character with
    ⟨letter, isShort, spelled, _⟩ | ⟨control, spelled⟩ | ⟨spelled, _⟩
  · right
    intro other member
    rw [spelled] at member
    rcases List.mem_cons.mp member with rfl | isLetter
    · decide
    · rw [List.mem_singleton.mp isLetter]
      simpa using List.all_eq_true.mp letters letter isShort
  · right
    intro other member
    simp only [spelled, List.mem_cons, List.not_mem_nil, or_false] at member
    rcases member with rfl | rfl | rfl | rfl | rfl | rfl
    · decide
    · decide
    · decide
    · decide
    · exact digits _ (by omega)
    · exact digits _ (Nat.mod_lt _ (by decide))
  · exact .inl spelled

theorem Enclosed.value (value : List Char) (ends : EndsValue behind) (enclosed : Enclosed behind) :
    Enclosed (value.flatMap Quoted.encodeChar ++ '"' :: behind) := by
  induction value with
  | nil =>
    have quote : ∀ character ∈ ['"'], ¬isOpening character = true :=
      List.forall_mem_singleton.mpr (by decide)
    exact @Enclosed.append ['"'] behind quote enclosed
  | cons character later ih =>
    rw [List.flatMap_cons, List.append_assoc]
    rcases encodeChar_plain character with itself | plain
    · rw [itself]
      intro start bracket rest whole opening
      cases start with
      | nil =>
        obtain ⟨rfl, rfl⟩ := List.cons.inj whole
        exact ⟨later, behind, rfl, ends⟩
      | cons first others => exact ih others bracket rest (List.cons.inj whole).2 opening
    · exact ih.append plain

theorem Enclosed.member (field : Field) (value : String) (ends : EndsValue behind)
    (enclosed : Enclosed behind) : Enclosed (renderMember field value ++ behind) := by
  have name : ∀ character ∈ Quoted.encode field.name.toList ++ [':', '"'],
      ¬isOpening character = true := by
    have all : ((Quoted.encode field.name.toList ++ [':', '"']).all fun character =>
        !isOpening character) = true := by
      cases field <;> decide
    intro character member
    simpa using List.all_eq_true.mp all character member
  have parts : renderMember field value ++ behind =
      (Quoted.encode field.name.toList ++ [':', '"']) ++
        (value.toList.flatMap Quoted.encodeChar ++ '"' :: behind) := by
    simp [renderMember, Quoted.encode]
  rw [parts]
  exact (Enclosed.value value.toList ends enclosed).append name

private theorem exists_letter (field : Field) (value : String) :
    ∃ letter rest, renderMember field value = '"' :: letter :: rest ∧ letter.isAlpha = true := by
  cases field with
  | sender => exact ⟨'s', _, rfl, rfl⟩
  | text => exact ⟨'m', _, rfl, rfl⟩
  | timestamp => exact ⟨'t', _, rfl, rfl⟩

private theorem enclosed_members (members : List (Field × String)) :
    Enclosed (renderMembers members ++ ['\x7d']) := by
  have brace : Enclosed ['\x7d'] := by
    intro start bracket rest whole opening
    have isBrace : bracket ∈ ['\x7d'] := by
      rw [whole]
      exact List.mem_append_right start List.mem_cons_self
    rw [List.mem_singleton.mp isBrace] at opening
    cases opening
  fun_induction renderMembers members with
  | case1 => exact brace
  | case2 field value => exact Enclosed.member field value .last brace
  | case3 field value rest notLast ih =>
    have comma : ∀ character ∈ [','], ¬isOpening character = true :=
      List.forall_mem_singleton.mpr (by decide)
    have ends : EndsValue (',' :: (renderMembers rest ++ ['\x7d'])) := by
      cases rest with
      | nil => exact absurd rfl notLast
      | cons next others =>
        obtain ⟨letter, behind, spelled, isLetter⟩ := exists_letter next.1 next.2
        rw [renderMembers_cons, spelled]
        exact .next letter _ isLetter
    rw [List.append_assoc]
    exact Enclosed.member field value ends (@Enclosed.append [','] _ comma ih)

end Enclosed

/-! ## What does not scan -/

section Scanning

variable {α : Type} {format : Format α} {behind value : List Char}

private theorem skipBlank_letter {letter : Char} (isLetter : letter.isAlpha = true)
    (rest : List Char) :
    skipBlank (letter :: rest) = letter :: rest := by
  have notBlank : isBlank letter = false := by
    rw [← Bool.not_eq_true]
    intro blank
    simp only [isBlank, Bool.or_eq_true, beq_iff_eq] at blank
    rcases blank with ((rfl | rfl) | rfl) | rfl <;> cases isLetter
  exact List.dropWhile_cons_of_neg (by simp [notBlank])

theorem ne_of_isAlpha {letter : Char} (isLetter : letter.isAlpha = true) {mark : Char}
    (isMark : mark.isAlpha = false) : letter ≠ mark := by
  rintro rfl
  rw [isLetter] at isMark
  cases isMark

/-- Taken for an opening quote, the closing quote of a value opens a string without an end, or
just a comma in front of a letter. -/
theorem scan_endsValue (ends : EndsValue behind) :
    (∃ failure, Quoted.scan behind = .error failure) ∨
      ∃ letter rest, Quoted.scan behind = .ok ([','], letter :: rest) ∧
        letter.isAlpha = true := by
  cases ends with
  | last =>
    left
    have unended : Quoted.scan ['\x7d'] = failHere .endOfString [] := by
      rw [Quoted.scan, Quoted.scanFrom_plain (by decide) (by decide) (by decide), Quoted.scanFrom]
    exact ⟨_, unended⟩
  | next letter rest isLetter => exact .inr ⟨letter, rest, Quoted.scan_encode [','] _, isLetter⟩

private theorem scanMember_endsValue (ends : EndsValue behind) (slots : Slots)
    (result : Slots × List Char) : scanMember format slots behind ≠ .ok result := by
  intro scanned
  rcases scan_endsValue ends with ⟨failure, failed⟩ | ⟨letter, rest, quoted, isLetter⟩
  · simp only [scanMember, failed] at scanned
    cases scanned
  · have noColon : skipColon (letter :: rest) = failAtNext .expectedColon (letter :: rest) := by
      simp only [skipColon, skipBlank_letter isLetter,
        if_neg (ne_of_isAlpha isLetter (show ':'.isAlpha = false from rfl))]
    simp only [scanMember, quoted, noColon, failAtNext, failHere] at scanned
    repeat' split at scanned
    all_goals cases scanned

/-- In front of a value that was escaped there are spaces, and then its closing quote or something
that is no quote. -/
theorem skipBlank_value (value behind : List Char) :
    ∃ first rest, skipBlank (value.flatMap Quoted.encodeChar ++ '"' :: behind) = first :: rest ∧
      (first = '"' → rest = behind) := by
  induction value with
  | nil => exact ⟨'"', behind, rfl, fun _ => rfl⟩
  | cons character later ih =>
    rw [List.flatMap_cons, List.append_assoc]
    rcases Quoted.encodeChar_cases character with
      ⟨letter, _, spelled, _⟩ | ⟨_, spelled⟩ | ⟨spelled, noQuote, _, _⟩
    · rw [spelled]
      exact ⟨'\\', _, rfl, fun quote => by cases quote⟩
    · rw [spelled]
      exact ⟨'\\', _, rfl, fun quote => by cases quote⟩
    · rw [spelled, List.singleton_append]
      by_cases blank : isBlank character = true
      · rw [skipBlank, List.dropWhile_cons_of_pos blank]
        exact ih
      · rw [skipBlank, List.dropWhile_cons_of_neg blank]
        exact ⟨character, _, rfl, fun quote => absurd quote noQuote⟩

/-- A format whose records need some field. -/
def Format.IsDemanding (format : Format α) : Prop :=
  ∃ field, format.build {} = .error field

private theorem buildAt_empty (demanding : format.IsDemanding) (text : List Char)
    (result : α × List Char) : buildAt format {} text ≠ .ok result := by
  obtain ⟨field, missing⟩ := demanding
  simp only [buildAt, missing, failHere]
  intro built
  cases built

private theorem scanMembers_value (demanding : format.IsDemanding) (ends : EndsValue behind)
    (result : α × List Char) :
    scanMembers format true {} (value.flatMap Quoted.encodeChar ++ '"' :: behind) ≠
      .ok result := by
  intro scanned
  obtain ⟨first, rest, found, closes⟩ := skipBlank_value value behind
  rw [scanMembers.eq_def] at scanned
  split at scanned
  · cases scanned
  · rename_i opened
    obtain ⟨rfl, rfl⟩ := List.cons.inj (opened.symm.trans found)
    split at scanned
    · exact buildAt_empty demanding _ _ scanned
    · simp only [if_true] at scanned
      split at scanned
      · rename_i quote
        split at scanned
        · cases scanned
        · rename_i member
          rw [closes quote] at member
          exact scanMember_endsValue ends _ _ member
      · cases scanned

private theorem scanListEnd_letter {letter : Char} (isLetter : letter.isAlpha = true)
    (rest result : List Char) : scanListEnd (letter :: rest) ≠ .ok result := by
  simp only [scanListEnd, skipBlank_letter isLetter,
    if_neg (ne_of_isAlpha isLetter (show ']'.isAlpha = false from rfl)),
    if_neg (ne_of_isAlpha isLetter (show ','.isAlpha = false from rfl)), failAtNext]
  intro ended
  cases ended

/-- A list goes on with a comma or ends, but not with a letter. -/
theorem scanElements_letter {letter : Char} (isLetter : letter.isAlpha = true) {index : Nat}
    (later : index ≠ 0) (slots : Slots) (field : Field) (fields : List Field) (rest : List Char)
    (result : Slots × List Char) :
    scanElements format index slots (field :: fields) (letter :: rest) ≠ .ok result := by
  simp only [scanElements, skipBlank_letter isLetter, later,
    if_neg (ne_of_isAlpha isLetter (show ']'.isAlpha = false from rfl)),
    if_neg (ne_of_isAlpha isLetter (show ','.isAlpha = false from rfl)), if_false, failAtNext]
  intro scanned
  cases scanned

/-- As the elements of a list, the rest of a value gives at most a comma, and a letter is left. -/
theorem scanElements_value (ends : EndsValue behind) (fields : List Field) {filled : Slots}
    {left : List Char}
    (scanned : scanElements format 0 {} fields (value.flatMap Quoted.encodeChar ++ '"' :: behind) =
      .ok (filled, left)) :
    filled = {} ∨ ∃ letter rest, left = letter :: rest ∧ letter.isAlpha = true := by
  cases fields with
  | nil =>
    simp only [scanElements, Except.ok.injEq, Prod.mk.injEq] at scanned
    exact .inl scanned.1.symm
  | cons field later =>
    right
    obtain ⟨first, rest, found, closes⟩ := skipBlank_value value behind
    simp only [scanElements, found, if_true] at scanned
    split at scanned
    · cases scanned
    · rw [scanString, skipBlank_front found] at scanned
      by_cases quote : first = '"'
      · simp only [if_pos quote, closes quote] at scanned
        rcases scan_endsValue ends with ⟨failure, failed⟩ | ⟨letter, others, quoted, isLetter⟩
        · rw [failed] at scanned
          cases scanned
        · rw [quoted] at scanned
          cases later with
          | nil =>
            simp only [scanElements, Except.ok.injEq, Prod.mk.injEq] at scanned
            exact ⟨letter, others, scanned.2.symm, isLetter⟩
          | cons next fields =>
            exact absurd scanned (scanElements_letter isLetter (by decide) _ next fields _ _)
      · simp only [if_neg quote] at scanned
        split at scanned
        · cases scanned
        · rename_i string
          exact absurd string (refuse_ne_ok _ _ _ _)

/-- From a bracket inside a value on, no record is read. -/
theorem scanRecord_value (demanding : format.IsDemanding) {bracket : Char}
    (opening : isOpening bracket = true) (ends : EndsValue behind) (result : α × List Char) :
    scanRecord format (bracket :: (value.flatMap Quoted.encodeChar ++ '"' :: behind)) ≠
      .ok result := by
  intro scanned
  obtain ⟨first, rest, found, closes⟩ := skipBlank_value value behind
  have itself : skipBlank (bracket :: (value.flatMap Quoted.encodeChar ++ '"' :: behind)) =
      bracket :: (value.flatMap Quoted.encodeChar ++ '"' :: behind) := by
    rcases isOpening_iff.mp opening with rfl | rfl <;> rfl
  rw [scanRecord, itself] at scanned
  rcases isOpening_iff.mp opening with rfl | rfl
  · exact scanMembers_value demanding ends result scanned
  · simp only [Char.reduceEq, if_true, if_false] at scanned
    split at scanned
    · cases scanned
    · rename_i elements
      split at scanned
      · cases scanned
      · rename_i ended
        rcases scanElements_value ends format.fields elements with
          rfl | ⟨letter, rest, rfl, isLetter⟩
        · exact buildAt_empty demanding _ _ scanned
        · exact scanListEnd_letter isLetter rest _ ended

/-- A record begins with a bracket, and there are only blanks in front of it. -/
theorem exists_opening {text : List Char} {result : α × List Char}
    (scanned : scanRecord format text = .ok result) :
    ∃ blanks bracket rest, text = blanks ++ bracket :: rest ∧ isOpening bracket = true ∧
      scanRecord format (bracket :: rest) = .ok result := by
  cases found : skipBlank text with
  | nil =>
    rw [scanRecord, found] at scanned
    cases scanned
  | cons first rest =>
    have again : scanRecord format (first :: rest) = .ok result := by
      rw [← scanned, scanRecord, scanRecord, skipBlank_front found, found]
    refine ⟨text.takeWhile isBlank, first, rest, ?_, ?_, again⟩
    · rw [← found]
      exact List.takeWhile_append_dropWhile.symm
    · rw [isOpening_iff]
      rw [scanRecord, skipBlank_front found] at again
      simp only at again
      split at again
      · exact .inl ‹_›
      · split at again
        · exact .inr ‹_›
        · exact absurd again (refuse_ne_ok _ _ _ _)

end Scanning

/-! ## Ends of lines -/

section Ends

variable {α : Type} {format : Format α} {message : α}

/-- What stands behind the first character of a record, or further behind, is not a record. -/
theorem decodeLine_suffix (demanding : format.IsDemanding) {front tail : List Char}
    (parts : format.render message = front ++ tail) (proper : front ≠ []) (content : α) :
    decodeLine format tail ≠ .ok content := by
  intro decoded
  obtain ⟨first, before, rfl⟩ := List.exists_cons_of_ne_nil proper
  have members := (List.cons.inj parts).2
  rw [decodeLine] at decoded
  split at decoded
  · cases decoded
  · rename_i scanned
    obtain ⟨blanks, bracket, rest, rfl, opening, bracketed⟩ := exists_opening scanned
    obtain ⟨value, behind, rfl, ends⟩ := enclosed_members _ (before ++ blanks) bracket rest
      (members.trans (List.append_assoc before blanks _).symm) opening
    exact scanRecord_value demanding opening ends _ bracketed

/-- Cut off anywhere behind its first byte, the rest of a message's line gives no message. -/
theorem readPiece_suffix (demanding : format.IsDemanding) {front tail : List UInt8}
    (parts : encodeLine format message = front ++ tail) (proper : front ≠ []) (content : α) :
    readPiece format tail ≠ some (.ok content) := by
  intro read
  cases readPiece_eq_iff.mp read with
  | message line _ _ hasLine notEmpty decoded =>
    obtain ⟨⟨ending, spelled, ends⟩, trimmed⟩ := hasLine
    have whole : front ++ Utf8.encode (line ++ ending) =
        Utf8.encode (format.render message ++ ['\n']) := by
      rw [spelled, ← parts, encodeLine, Utf8.encode_append, lineFeed_byte]
    obtain ⟨first, spells, text⟩ := Utf8.exists_of_append_encode whole
    rw [← List.append_assoc] at text
    have lastOf : ∀ character, (first ++ line).getLast? = some character →
        isLineEnding character = false := by
      intro character last
      cases isLast : line.getLast? with
      | none => exact absurd (List.getLast?_eq_none_iff.mp isLast) notEmpty
      | some other =>
        rw [List.getLast?_append, isLast, Option.some_or] at last
        exact trimmed character (isLast.trans last)
    -- Both are the same text without the line endings at its end.
    have record : format.render message = first ++ line := by
      rw [← trimLine_render, text, trimLine_append ends lastOf]
    have firstProper : first ≠ [] := by
      rintro rfl
      exact proper spells.symm
    exact decodeLine_suffix demanding record firstProper content decoded

end Ends

end ChatHub.Wire
