import ChatHub.Json.Skip
import ChatHub.Proofs.Json.Numeral
import ChatHub.Proofs.Json.Spelling
/-!
The grammar of values nobody asked for. `Derives` has a rule for each kind of value, with brackets
nested to any depth; `skipValue` goes through the same text with a list of the brackets still open.
Main results: whatever is passed over is derived, and whatever is derived is passed over.
-/

set_option autoImplicit false

namespace ChatHub.Json

/-! ## White space -/

def IsBlanks (blanks : List Char) : Prop :=
  ∀ character ∈ blanks, isBlank character = true

theorem isBlanks_nil : IsBlanks [] :=
  List.forall_mem_nil _

theorem skipBlank_append {blanks : List Char} (areBlanks : IsBlanks blanks) (text : List Char) :
    skipBlank (blanks ++ text) = skipBlank text :=
  List.dropWhile_append_of_pos areBlanks

theorem exists_blanks (text : List Char) :
    ∃ blanks, IsBlanks blanks ∧ text = blanks ++ skipBlank text :=
  ⟨text.takeWhile isBlank, List.all_eq_true.mp List.all_takeWhile,
    List.takeWhile_append_dropWhile.symm⟩

theorem skipBlank_cons {first : Char} (isMark : isBlank first = false) (rest : List Char) :
    skipBlank (first :: rest) = first :: rest :=
  List.dropWhile_cons_of_neg (by simp [isMark])

theorem isBlank_of_skipBlank {text rest : List Char} {first : Char}
    (front : skipBlank text = first :: rest) : isBlank first = false := by
  have notBlank := List.head?_dropWhile_not isBlank text
  rw [← skipBlank, front, List.head?_cons] at notBlank
  simpa using notBlank

theorem skipBlank_front {text rest : List Char} {first : Char}
    (front : skipBlank text = first :: rest) : skipBlank (first :: rest) = first :: rest :=
  skipBlank_cons (isBlank_of_skipBlank front) rest

theorem isBlanks_of_skipBlank {text : List Char} (nothing : skipBlank text = []) :
    IsBlanks text := by
  obtain ⟨blanks, areBlanks, parts⟩ := exists_blanks text
  rw [nothing, List.append_nil] at parts
  exact parts ▸ areBlanks

/-! ## Values -/

def Bracket.opening : Bracket → Char
  | .list => '['
  | .object => '\x7b'

/-- What the grammar has rules for: a value, a value behind white space, a member of an object, and
what is behind an opening bracket or further inside, through to the closing one. -/
inductive Part where
  | value
  | element
  | member
  | inside (bracket : Bracket) (isFirst : Bool)

/-- What a bracket holds any number of. -/
def Bracket.item : Bracket → Part
  | .list => .element
  | .object => .member

/-- Values as they may be written where nobody asks what they say: `Derives part text rest` if a
part of this kind stands in front of `rest`. -/
inductive Derives : Part → List Char → List Char → Prop where
  | word {word rest : List Char} :
      word ∈ ["null".toList, "true".toList, "false".toList] → Derives .value (word ++ rest) rest
  | number {number rest : List Char} : IsNumber number → Derives .value (number ++ rest) rest
  | string {text rest : List Char} : Closes text rest → Derives .value ('"' :: text) rest
  | brackets {bracket : Bracket} {text rest : List Char} :
      Derives (.inside bracket true) text rest → Derives .value (bracket.opening :: text) rest
  | element {blanks text rest : List Char} :
      IsBlanks blanks → Derives .value text rest → Derives .element (blanks ++ text) rest
  | member {before name between value rest : List Char} :
      IsBlanks before → Closes name (between ++ ':' :: value) → IsBlanks between →
      Derives .element value rest → Derives .member (before ++ '"' :: name) rest
  | close {bracket : Bracket} {isFirst : Bool} {blanks rest : List Char} :
      IsBlanks blanks → Derives (.inside bracket isFirst) (blanks ++ bracket.closing :: rest) rest
  | start {bracket : Bracket} {text behind rest : List Char} :
      Derives bracket.item text behind → Derives (.inside bracket false) behind rest →
      Derives (.inside bracket true) text rest
  | next {bracket : Bracket} {blanks text behind rest : List Char} :
      IsBlanks blanks → Derives bracket.item text behind →
      Derives (.inside bracket false) behind rest →
      Derives (.inside bracket false) (blanks ++ ',' :: text) rest

section Derivations

variable {part : Part} {text rest : List Char}

theorem Derives.append (derives : Derives part text rest) (more : List Char) :
    Derives part (text ++ more) (rest ++ more) := by
  induction derives with
  | word known => simpa using Derives.word known
  | number isNumber => simpa using Derives.number isNumber
  | string closes => exact .string (closes.append more)
  | brackets _ ih => exact .brackets ih
  | element areBlanks _ ih => simpa using Derives.element areBlanks ih
  | member before name between _ ih =>
    have named := name.append more
    simp only [List.append_assoc, List.cons_append] at named ⊢
    exact .member before named between ih
  | close areBlanks => simpa using Derives.close areBlanks
  | start _ _ item later => exact .start item later
  | next areBlanks _ _ item later => simpa using Derives.next areBlanks item later

theorem Derives.suffix (derives : Derives part text rest) : rest <:+ text := by
  induction derives with
  | word => exact List.suffix_append _ _
  | number => exact List.suffix_append _ _
  | string closes => exact closes.suffix.trans (List.suffix_cons _ _)
  | brackets _ ih => exact ih.trans (List.suffix_cons _ _)
  | element _ _ ih => exact ih.trans (List.suffix_append _ _)
  | member _ name _ _ ih =>
    exact ih.trans ((List.suffix_cons _ _).trans ((List.suffix_append _ _).trans
      (name.suffix.trans ((List.suffix_cons _ _).trans (List.suffix_append _ _)))))
  | close => exact (List.suffix_cons _ _).trans (List.suffix_append _ _)
  | start _ _ item later => exact later.trans item
  | next _ _ _ item later =>
    exact later.trans (item.trans ((List.suffix_cons _ _).trans (List.suffix_append _ _)))

end Derivations

/-! ## Passing over -/

/-- What the brackets that are still open need, from behind a value. -/
def Finishes : List Bracket → List Char → List Char → Prop
  | [], text, rest => text = rest
  | bracket :: brackets, text, rest =>
    ∃ behind, Derives (.inside bracket false) text behind ∧ Finishes brackets behind rest

/-- What is passed over when this is expected. -/
def Passes : Expecting → List Bracket → List Char → List Char → Prop
  | .value, brackets, text, rest =>
    ∃ behind, Derives .element text behind ∧ Finishes brackets behind rest
  | .name, brackets, text, rest =>
    ∃ behind, Derives .member text behind ∧ Finishes brackets behind rest
  | .behindValue, brackets, text, rest => Finishes brackets text rest
  | .behindBracket, [], text, rest => text = rest
  | .behindBracket, bracket :: brackets, text, rest =>
    ∃ behind, Derives (.inside bracket true) text behind ∧ Finishes brackets behind rest

section Passing

variable {text rest : List Char}

theorem skipWord_eq_ok_iff {word : List Char} :
    skipWord text word = .ok rest ↔ text = word ++ rest := by
  induction word generalizing text with
  | nil => simp [skipWord]
  | cons letter later ih =>
    cases text with
    | nil => simp [skipWord, failHere]
    | cons first behind =>
      simp only [skipWord, List.cons_append, List.cons.injEq]
      split
      · rename_i same
        simp [ih, same]
      · rename_i different
        simp [failAtNext, different]

private theorem ofOpening?_eq_some_iff {first : Char} {bracket : Bracket} :
    Bracket.ofOpening? first = some bracket ↔ first = bracket.opening := by
  unfold Bracket.ofOpening?
  split
  · rename_i isList
    subst isList
    cases bracket <;> simp [Bracket.opening]
  split
  · rename_i isObject
    subst isObject
    cases bracket <;> simp [Bracket.opening]
  · rename_i notList notObject
    cases bracket <;> simp [Bracket.opening, notList, notObject]

theorem skipColon_append {blanks : List Char} (areBlanks : IsBlanks blanks) (rest : List Char) :
    skipColon (blanks ++ ':' :: rest) = .ok rest := by
  have colon : isBlank ':' = false := rfl
  simp only [skipColon, skipBlank_append areBlanks, skipBlank_cons colon, if_true]

theorem skipColon_eq_ok_iff :
    skipColon text = .ok rest ↔ ∃ blanks, IsBlanks blanks ∧ text = blanks ++ ':' :: rest := by
  constructor
  · intro skipped
    unfold skipColon at skipped
    obtain ⟨blanks, areBlanks, parts⟩ := exists_blanks text
    split at skipped
    · cases skipped
    · rename_i front
      rw [front] at parts
      split at skipped
      · rename_i colon
        cases skipped
        exact ⟨blanks, areBlanks, colon ▸ parts⟩
      · cases skipped
  · rintro ⟨blanks, areBlanks, rfl⟩
    exact skipColon_append areBlanks rest

/-- A value without brackets is passed over from behind its first character. -/
theorem skipScalar?_eq_ok {first : Char} (skipped : skipScalar? first text = some (.ok rest)) :
    Derives .value (first :: text) rest := by
  unfold skipScalar? at skipped
  split at skipped
  · rw [skipWord_eq_ok_iff.mp (Option.some.inj skipped)]
    exact @Derives.word "null".toList rest (by decide)
  · rw [skipWord_eq_ok_iff.mp (Option.some.inj skipped)]
    exact @Derives.word "true".toList rest (by decide)
  · rw [skipWord_eq_ok_iff.mp (Option.some.inj skipped)]
    exact @Derives.word "false".toList rest (by decide)
  · exact .string (Quoted.skip_eq_ok_iff.mp (Option.some.inj skipped))
  · obtain ⟨whole, fraction, exponent, rfl, isWhole, isFraction, isExponent⟩ :=
      Number.skip_eq_ok (Option.some.inj skipped)
    have number := @IsNumber.mk ['-'] _ _ _ (by simp) isWhole isFraction isExponent
    simpa using @Derives.number _ rest number
  · split at skipped
    · obtain ⟨whole, fraction, exponent, parts, isWhole, isFraction, isExponent⟩ :=
        Number.skip_eq_ok (Option.some.inj skipped)
      have number := @IsNumber.mk [] _ _ _ (by simp) isWhole isFraction isExponent
      rw [parts]
      simpa using @Derives.number _ rest number
    · cases skipped

variable {bracket : Bracket} {brackets : List Bracket} {blanks : List Char}

private theorem Derives.item_blanks (areBlanks : IsBlanks blanks)
    (item : Derives bracket.item text rest) :
    Derives bracket.item (blanks ++ text) rest := by
  have more : ∀ {others}, IsBlanks others → IsBlanks (blanks ++ others) := by
    intro others areOthers character member
    rcases List.mem_append.mp member with first | later
    · exact areBlanks character first
    · exact areOthers character later
  cases bracket with
  | list =>
    cases item with
    | element before value =>
      rw [← List.append_assoc]
      exact .element (more before) value
  | object =>
    cases item with
    | member before name between value =>
      rw [← List.append_assoc]
      exact .member (more before) name between value

/-- Behind a comma comes one more item of the innermost bracket. -/
theorem finishes_next (areBlanks : IsBlanks blanks)
    (passes : ∃ behind, Derives bracket.item text behind ∧
      Finishes (bracket :: brackets) behind rest) :
    Finishes (bracket :: brackets) (blanks ++ ',' :: text) rest := by
  obtain ⟨_, item, behind, inside, finishes⟩ := passes
  exact ⟨behind, .next areBlanks item inside, finishes⟩

private theorem passes_first (areBlanks : IsBlanks blanks)
    (passes : ∃ behind, Derives bracket.item text behind ∧
      Finishes (bracket :: brackets) behind rest) :
    Passes .behindBracket (bracket :: brackets) (blanks ++ text) rest := by
  obtain ⟨_, item, behind, inside, finishes⟩ := passes
  exact ⟨behind, .start (item.item_blanks areBlanks) inside, finishes⟩

/-- Whatever is passed over was expected, and the brackets around it are finished. -/
theorem passes_of_skipFrom {expecting : Expecting}
    (skipped : skipFrom expecting brackets text = .ok rest) :
    Passes expecting brackets text rest := by
  fun_induction skipFrom expecting brackets text with
  | case2 text brackets first behind front _ bracket opening ih =>
    obtain ⟨blanks, areBlanks, parts⟩ := exists_blanks text
    obtain ⟨_, inside, finishes⟩ := ih skipped
    rw [parts, front, ofOpening?_eq_some_iff.mp opening]
    exact ⟨_, .element areBlanks (.brackets inside), finishes⟩
  | case5 text brackets first behind front _ _ _ scalar _ ih =>
    obtain ⟨blanks, areBlanks, parts⟩ := exists_blanks text
    rw [parts, front]
    exact ⟨_, .element areBlanks (skipScalar?_eq_ok scalar), ih skipped⟩
  | case9 text brackets quoted named name _ value colon _ front _ ih =>
    obtain ⟨blanks, areBlanks, parts⟩ := exists_blanks text
    obtain ⟨between, areBetween, rfl⟩ := skipColon_eq_ok_iff.mp colon
    obtain ⟨_, element, finishes⟩ := ih skipped
    rw [parts, front]
    exact ⟨_, .member areBlanks (Quoted.skip_eq_ok_iff.mp name) areBetween element, finishes⟩
  | case11 text =>
    cases skipped
    rfl
  | case13 text brackets behind front _ ih =>
    obtain ⟨blanks, areBlanks, parts⟩ := exists_blanks text
    rw [parts, front]
    exact finishes_next areBlanks (ih skipped)
  | case14 text brackets behind front _ ih =>
    obtain ⟨blanks, areBlanks, parts⟩ := exists_blanks text
    rw [parts, front]
    exact finishes_next areBlanks (ih skipped)
  | case15 text bracket brackets behind front _ _ ih =>
    obtain ⟨blanks, areBlanks, parts⟩ := exists_blanks text
    rw [parts, front]
    exact ⟨_, .close areBlanks, ih skipped⟩
  | case17 text =>
    cases skipped
    rfl
  | case19 text bracket brackets behind front _ ih =>
    obtain ⟨blanks, areBlanks, parts⟩ := exists_blanks text
    rw [parts, front]
    exact ⟨_, .close areBlanks, ih skipped⟩
  | case20 text brackets first behind front _ _ ih =>
    obtain ⟨blanks, areBlanks, parts⟩ := exists_blanks text
    rw [parts, front]
    exact passes_first areBlanks (ih skipped)
  | case21 text brackets first behind front _ _ ih =>
    obtain ⟨blanks, areBlanks, parts⟩ := exists_blanks text
    rw [parts, front]
    exact passes_first areBlanks (ih skipped)
  | _ => cases skipped

theorem derives_of_skipValue (skipped : skipValue text = .ok rest) :
    Derives .element text rest := by
  obtain ⟨_, element, rfl⟩ := passes_of_skipFrom skipped
  exact element

/-! ## Everything derived is passed over -/

theorem endsNumber_mark {mark : Char} (areBlanks : IsBlanks blanks)
    (isMark : mark ∈ [',', ']', '\x7d']) (rest : List Char) :
    EndsNumber (blanks ++ mark :: rest) := by
  intro character front
  cases blanks with
  | nil =>
    cases front
    simp only [List.mem_cons, List.not_mem_nil, or_false] at isMark
    rcases isMark with rfl | rfl | rfl <;> decide
  | cons blank others =>
    cases front
    have isBlank := areBlanks character List.mem_cons_self
    simp only [Json.isBlank, Bool.or_eq_true, beq_iff_eq] at isBlank
    rcases isBlank with ((rfl | rfl) | rfl) | rfl <;> decide

theorem Derives.endsNumber (derives : Derives (.inside bracket false) text rest) :
    EndsNumber text := by
  cases derives with
  | close areBlanks => cases bracket <;> exact endsNumber_mark areBlanks (by decide) _
  | next areBlanks => exact endsNumber_mark areBlanks (by decide) _

private theorem skipFrom_bracket {first : Char} (front : skipBlank text = first :: rest)
    (opening : Bracket.ofOpening? first = some bracket) :
    skipFrom .value brackets text = skipFrom .behindBracket (bracket :: brackets) rest := by
  rw [skipFrom.eq_def]
  grind

private theorem skipFrom_scalar {first : Char} {behind : List Char}
    (front : skipBlank text = first :: behind) (noBracket : Bracket.ofOpening? first = none)
    (scalar : skipScalar? first behind = some (.ok rest)) :
    skipFrom .value brackets text = skipFrom .behindValue brackets rest := by
  rw [skipFrom.eq_def]
  grind

private theorem skipFrom_name {name value : List Char} (front : skipBlank text = '"' :: name)
    (skipped : Quoted.skip name = .ok rest) (colon : skipColon rest = .ok value) :
    skipFrom .name brackets text = skipFrom .value brackets value := by
  rw [skipFrom.eq_def]
  grind

/-- What is expected where an item begins. -/
def Bracket.expecting : Bracket → Expecting
  | .list => .value
  | .object => .name

private theorem skipFrom_first {first : Char} (front : skipBlank text = first :: rest)
    (notClosing : first ≠ bracket.closing) :
    skipFrom .behindBracket (bracket :: brackets) text =
      skipFrom bracket.expecting (bracket :: brackets) (first :: rest) := by
  rw [skipFrom.eq_def]
  grind [Bracket.expecting]

private theorem skipFrom_next (front : skipBlank text = ',' :: rest) :
    skipFrom .behindValue (bracket :: brackets) text =
      skipFrom bracket.expecting (bracket :: brackets) rest := by
  rw [skipFrom.eq_def]
  grind [Bracket.expecting]

private theorem skipFrom_close (front : skipBlank text = bracket.closing :: rest) :
    skipFrom .behindValue (bracket :: brackets) text = skipFrom .behindValue brackets rest := by
  rw [skipFrom.eq_def]
  grind [Bracket.closing]

private theorem skipFrom_closeFirst (front : skipBlank text = bracket.closing :: rest) :
    skipFrom .behindBracket (bracket :: brackets) text = skipFrom .behindValue brackets rest := by
  rw [skipFrom.eq_def]
  grind

private theorem skipBlank_skipBlank (text : List Char) :
    skipBlank (skipBlank text) = skipBlank text := by
  cases front : skipBlank text with
  | nil => rfl
  | cons first rest => exact skipBlank_front front

private theorem skipFrom_skipBlank :
    skipFrom bracket.expecting brackets (skipBlank text) =
      skipFrom bracket.expecting brackets text := by
  have again := skipBlank_skipBlank text
  cases bracket with
  | list => rw [Bracket.expecting, skipFrom.eq_def, skipFrom.eq_def .value brackets text]; grind
  | object => rw [Bracket.expecting, skipFrom.eq_def, skipFrom.eq_def .name brackets text]; grind

/-- How a value begins. -/
def beginsValue (first : Char) : Bool :=
  first.isDigit || "ntf\"-[\x7b".toList.contains first

private theorem beginsValue_spec {first : Char} (begins : beginsValue first = true) :
    isBlank first = false ∧ first ≠ ']' := by
  constructor
  · rw [← Bool.not_eq_true]
    intro blank
    simp only [isBlank, Bool.or_eq_true, beq_iff_eq] at blank
    rcases blank with ((rfl | rfl) | rfl) | rfl <;> revert begins <;> decide
  · rintro rfl
    revert begins
    decide

theorem IsNumber.begins {number : List Char} (isNumber : IsNumber number) :
    ∃ first later, number = first :: later ∧ beginsValue first = true := by
  obtain ⟨isSign, isWhole, _, _⟩ := isNumber
  simp only [List.mem_cons, List.not_mem_nil, or_false] at isSign
  rcases isSign with rfl | rfl
  · cases isWhole with
    | zero => exact ⟨'0', _, rfl, rfl⟩
    | @digits first later _ isDigits =>
      have isDigit := isDigits.areDigits first List.mem_cons_self
      exact ⟨first, _, rfl, by simp [beginsValue, isDigit]⟩
  · exact ⟨'-', _, rfl, rfl⟩

theorem Derives.begins (derives : Derives .value text rest) :
    ∃ first later, text = first :: later ∧ beginsValue first = true := by
  cases derives with
  | word known =>
    simp only [List.mem_cons, List.not_mem_nil, or_false] at known
    rcases known with rfl | rfl | rfl <;> exact ⟨_, _, rfl, rfl⟩
  | number isNumber =>
    obtain ⟨first, later, rfl, begins⟩ := isNumber.begins
    exact ⟨first, _, rfl, begins⟩
  | string => exact ⟨'"', _, rfl, rfl⟩
  | @brackets bracket => cases bracket <;> exact ⟨_, _, rfl, rfl⟩

theorem Derives.skipBlank_eq (derives : Derives .value text rest) : skipBlank text = text := by
  obtain ⟨first, later, rfl, begins⟩ := derives.begins
  exact skipBlank_cons (beginsValue_spec begins).1 later

private theorem Derives.item_front (item : Derives bracket.item text rest) :
    ∃ first later, skipBlank text = first :: later ∧ first ≠ bracket.closing := by
  cases bracket with
  | list =>
    cases item with
    | element before value =>
      obtain ⟨first, later, rfl, begins⟩ := value.begins
      obtain ⟨notBlank, notClosing⟩ := beginsValue_spec begins
      rw [skipBlank_append before, skipBlank_cons notBlank]
      exact ⟨first, later, rfl, notClosing⟩
  | object =>
    cases item with
    | member before =>
      rw [skipBlank_append before, skipBlank_cons rfl]
      exact ⟨'"', _, rfl, by decide⟩

private theorem skipScalar?_word {word : List Char}
    (known : word ∈ ["null".toList, "true".toList, "false".toList]) :
    ∃ first later, word = first :: later ∧ isBlank first = false ∧
      Bracket.ofOpening? first = none ∧
      ∀ rest, skipScalar? first (later ++ rest) = some (.ok rest) := by
  have skipped : ∀ letters rest : List Char,
      some (skipWord (letters ++ rest) letters) = some (.ok rest) :=
    fun letters rest => congrArg some (skipWord_eq_ok_iff.mpr rfl)
  simp only [List.mem_cons, List.not_mem_nil, or_false] at known
  rcases known with rfl | rfl | rfl
  · exact ⟨'n', ['u', 'l', 'l'], rfl, rfl, rfl, skipped _⟩
  · exact ⟨'t', ['r', 'u', 'e'], rfl, rfl, rfl, skipped _⟩
  · exact ⟨'f', ['a', 'l', 's', 'e'], rfl, rfl, rfl, skipped _⟩

private theorem skipScalar?_digit {first : Char} (isDigit : first.isDigit = true)
    (text : List Char) :
    Bracket.ofOpening? first = none ∧
      skipScalar? first text = some (Number.skip (first :: text)) := by
  constructor
  · cases opening : Bracket.ofOpening? first with
    | none => rfl
    | some bracket =>
      rw [ofOpening?_eq_some_iff] at opening
      subst opening
      cases bracket <;> cases isDigit
  · unfold skipScalar?
    split <;> first | cases isDigit | rw [if_pos isDigit]

private theorem skipScalar?_number {number : List Char} (isNumber : IsNumber number)
    (ends : EndsNumber rest) :
    ∃ first later, number = first :: later ∧ beginsValue first = true ∧
      Bracket.ofOpening? first = none ∧
      skipScalar? first (later ++ rest) = some (.ok rest) := by
  obtain ⟨first, later, same, begins⟩ := isNumber.begins
  obtain ⟨isSign, isWhole, isFraction, isExponent⟩ := isNumber
  have skipped := Number.skip_append isWhole isFraction isExponent ends
  refine ⟨first, later, same, begins, ?_⟩
  simp only [List.mem_cons, List.not_mem_nil, or_false] at isSign
  rcases isSign with rfl | rfl
  · have isDigit : first.isDigit = true := by
      cases isWhole with
      | zero => cases same; rfl
      | digits _ isDigits => cases same; exact isDigits.areDigits first List.mem_cons_self
    obtain ⟨noBracket, scalar⟩ := skipScalar?_digit isDigit (later ++ rest)
    refine ⟨noBracket, scalar.trans ?_⟩
    rw [← List.cons_append, ← same]
    simpa using skipped
  · cases same
    exact ⟨rfl, by simpa [skipScalar?] using skipped⟩

/-- How a part is passed over. -/
def IsSkipped : Part → List Char → List Char → Prop
  | .value, text, rest => EndsNumber rest → ∀ brackets,
      skipFrom .value brackets text = skipFrom .behindValue brackets rest
  | .element, text, rest => EndsNumber rest → ∀ brackets,
      skipFrom .value brackets text = skipFrom .behindValue brackets rest
  | .member, text, rest => EndsNumber rest → ∀ brackets,
      skipFrom .name brackets text = skipFrom .behindValue brackets rest
  | .inside bracket true, text, rest => ∀ brackets,
      skipFrom .behindBracket (bracket :: brackets) text = skipFrom .behindValue brackets rest
  | .inside bracket false, text, rest => ∀ brackets,
      skipFrom .behindValue (bracket :: brackets) text = skipFrom .behindValue brackets rest

theorem IsSkipped.item (skipped : IsSkipped bracket.item text rest) (ends : EndsNumber rest)
    (brackets : List Bracket) :
    skipFrom bracket.expecting brackets text = skipFrom .behindValue brackets rest := by
  cases bracket <;> exact skipped ends brackets

private theorem isSkipped_of_derives {part : Part} (derives : Derives part text rest) :
    IsSkipped part text rest := by
  induction derives with
  | @word word rest known =>
    intro _ brackets
    obtain ⟨first, later, rfl, notBlank, noBracket, scalar⟩ := skipScalar?_word known
    exact skipFrom_scalar (skipBlank_cons notBlank _) noBracket (scalar rest)
  | @number number rest isNumber =>
    intro ends brackets
    obtain ⟨first, later, rfl, begins, noBracket, scalar⟩ := skipScalar?_number isNumber ends
    exact skipFrom_scalar (skipBlank_cons (beginsValue_spec begins).1 _) noBracket scalar
  | string closes =>
    intro _ brackets
    exact skipFrom_scalar (skipBlank_cons rfl _) rfl
      (congrArg some (Quoted.skip_eq_ok_iff.mpr closes))
  | @brackets bracket text rest inside ih =>
    intro _ brackets
    have notBlank : isBlank bracket.opening = false := by cases bracket <;> rfl
    rw [skipFrom_bracket (skipBlank_cons notBlank text) (ofOpening?_eq_some_iff.mpr rfl)]
    exact ih brackets
  | element before _ ih =>
    intro ends brackets
    rw [← ih ends brackets]
    have same := fun text => @skipFrom_skipBlank text .list brackets
    simp only [Bracket.expecting] at same
    rw [← same, skipBlank_append before, same]
  | member before name between _ ih =>
    intro ends brackets
    rw [← ih ends brackets]
    exact skipFrom_name (by rw [skipBlank_append before, skipBlank_cons rfl])
      (Quoted.skip_eq_ok_iff.mpr name) (skipColon_append between _)
  | @close bracket isFirst blanks rest before =>
    have notBlank : isBlank bracket.closing = false := by cases bracket <;> rfl
    have front : skipBlank (blanks ++ bracket.closing :: rest) = bracket.closing :: rest := by
      rw [skipBlank_append before, skipBlank_cons notBlank]
    cases isFirst with
    | true => exact fun brackets => skipFrom_closeFirst front
    | false => exact fun brackets => skipFrom_close front
  | @start bracket text behind rest item inside itemIH insideIH =>
    intro brackets
    obtain ⟨first, later, front, notClosing⟩ := item.item_front
    rw [skipFrom_first front notClosing, ← front, skipFrom_skipBlank,
      itemIH.item inside.endsNumber]
    exact insideIH brackets
  | @next bracket blanks text behind rest before item inside itemIH insideIH =>
    intro brackets
    rw [skipFrom_next (by rw [skipBlank_append before, skipBlank_cons rfl]),
      itemIH.item inside.endsNumber]
    exact insideIH brackets

theorem skipValue_of_derives (derives : Derives .element text rest) (ends : EndsNumber rest) :
    skipValue text = .ok rest := by
  rw [skipValue, isSkipped_of_derives derives ends [], skipFrom.eq_def]

end Passing

end ChatHub.Json
