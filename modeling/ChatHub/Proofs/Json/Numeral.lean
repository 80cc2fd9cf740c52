import ChatHub.Json.Number
/-!
Numbers as they may be written, of any size: a sign, a whole part without a needless zero in front,
a fraction and an exponent. Passing over a number takes as many characters as can belong to it, so
a number is passed over as a whole if the text behind it could not go on into it.
-/

set_option autoImplicit false

namespace ChatHub.Json

structure IsDigits (digits : List Char) : Prop where
  notEmpty : digits ≠ []
  areDigits : ∀ digit ∈ digits, digit.isDigit = true

/-- A whole number has no zero in front, unless that is all of it. -/
inductive IsWhole : List Char → Prop where
  | zero : IsWhole ['0']
  | digits {first : Char} {later : List Char} :
      first ≠ '0' → IsDigits (first :: later) → IsWhole (first :: later)

inductive IsFraction : List Char → Prop where
  | none : IsFraction []
  | places {digits : List Char} : IsDigits digits → IsFraction ('.' :: digits)

inductive IsExponent : List Char → Prop where
  | none : IsExponent []
  | power {letter : Char} {sign digits : List Char} :
      letter ∈ ['e', 'E'] → sign ∈ [[], ['+'], ['-']] → IsDigits digits →
      IsExponent (letter :: (sign ++ digits))

/-- A number of any size. -/
inductive IsNumber : List Char → Prop where
  | mk {sign whole fraction exponent : List Char} :
      sign ∈ [[], ['-']] → IsWhole whole → IsFraction fraction → IsExponent exponent →
      IsNumber (sign ++ (whole ++ (fraction ++ exponent)))

/-- No number in front of this text could go on into it. -/
def EndsNumber (rest : List Char) : Prop :=
  ∀ character, rest.head? = some character →
    character.isDigit = false ∧ character ∉ ['.', 'e', 'E']

private theorem isDigit_of_mem_takeWhile {text : List Char} {digit : Char}
    (member : digit ∈ text.takeWhile Char.isDigit) : digit.isDigit = true :=
  List.all_eq_true.mp List.all_takeWhile digit member

theorem Number.skipDigits_eq_ok {text rest : List Char}
    (skipped : Number.skipDigits text = .ok rest) :
    ∃ digits, text = digits ++ rest ∧ IsDigits digits := by
  unfold Number.skipDigits at skipped
  split at skipped
  · rename_i begins
    cases skipped
    refine ⟨text.takeWhile Char.isDigit, List.takeWhile_append_dropWhile.symm, ?_, ?_⟩
    · cases text with
      | nil => cases begins
      | cons first later =>
        have isDigit : first.isDigit = true := by simpa using begins
        rw [List.takeWhile_cons_of_pos isDigit]
        exact List.cons_ne_nil _ _
    · exact fun _ => isDigit_of_mem_takeWhile
  · cases skipped

private theorem dropWhile_digits {digits rest : List Char}
    (areDigits : ∀ digit ∈ digits, digit.isDigit = true)
    (ends : ∀ character, rest.head? = some character → character.isDigit = false) :
    (digits ++ rest).dropWhile Char.isDigit = rest := by
  rw [List.dropWhile_append_of_pos areDigits]
  cases rest with
  | nil => rfl
  | cons first later => exact List.dropWhile_cons_of_neg (by simp [ends first rfl])

theorem Number.skipDigits_append {digits rest : List Char} (isDigits : IsDigits digits)
    (ends : ∀ character, rest.head? = some character → character.isDigit = false) :
    Number.skipDigits (digits ++ rest) = .ok rest := by
  obtain ⟨first, later, rfl⟩ := List.exists_cons_of_ne_nil isDigits.notEmpty
  have begins : ((first :: later ++ rest).head?.any Char.isDigit) = true :=
    isDigits.areDigits first List.mem_cons_self
  rw [Number.skipDigits, if_pos begins, dropWhile_digits isDigits.areDigits ends]

private theorem Number.skipExponent_eq_ok {text rest : List Char}
    (skipped : Number.skipExponent text = .ok rest) :
    ∃ sign digits, text = sign ++ (digits ++ rest) ∧ sign ∈ [[], ['+'], ['-']] ∧
      IsDigits digits := by
  obtain ⟨digits, unsigned, isDigits⟩ := Number.skipDigits_eq_ok skipped
  unfold Number.dropSign at unsigned
  split at unsigned
  · exact ⟨['-'], digits, by simp [unsigned], by simp, isDigits⟩
  · exact ⟨['+'], digits, by simp [unsigned], by simp, isDigits⟩
  · exact ⟨[], digits, unsigned, by simp, isDigits⟩

private theorem Number.skipExponent_append {sign digits rest : List Char}
    (isSign : sign ∈ [[], ['+'], ['-']]) (isDigits : IsDigits digits)
    (ends : ∀ character, rest.head? = some character → character.isDigit = false) :
    Number.skipExponent (sign ++ (digits ++ rest)) = .ok rest := by
  have unsigned : Number.dropSign (sign ++ (digits ++ rest)) = digits ++ rest := by
    simp only [List.mem_cons, List.not_mem_nil, or_false] at isSign
    rcases isSign with rfl | rfl | rfl
    · obtain ⟨first, later, rfl⟩ := List.exists_cons_of_ne_nil isDigits.notEmpty
      have isDigit := isDigits.areDigits first List.mem_cons_self
      simp only [List.nil_append, List.cons_append, Number.dropSign]
      split
      · rename_i same
        cases same
        cases isDigit
      · rename_i same
        cases same
        cases isDigit
      · rfl
    · rfl
    · rfl
  rw [Number.skipExponent, unsigned, Number.skipDigits_append isDigits ends]

private theorem Number.skipFraction_eq_ok {text rest : List Char}
    (skipped : Number.skipFraction text = .ok rest) :
    ∃ fraction exponent, text = fraction ++ (exponent ++ rest) ∧ IsFraction fraction ∧
      IsExponent exponent := by
  have power : ∀ letter ∈ ['e', 'E'], ∀ {behind : List Char},
      Number.skipExponent behind = .ok rest →
      ∃ exponent, letter :: behind = exponent ++ rest ∧ IsExponent exponent := by
    intro letter isLetter behind skipped
    obtain ⟨sign, digits, rfl, isSign, isDigits⟩ := Number.skipExponent_eq_ok skipped
    exact ⟨letter :: (sign ++ digits), by simp, .power isLetter isSign isDigits⟩
  unfold Number.skipFraction at skipped
  split at skipped
  · split at skipped
    · cases skipped
    · rename_i places
      obtain ⟨digits, rfl, isDigits⟩ := Number.skipDigits_eq_ok places
      obtain ⟨exponent, behind, isExponent⟩ := power 'e' (by simp) skipped
      exact ⟨_, exponent, by simp [behind], .places isDigits, isExponent⟩
    · rename_i places
      obtain ⟨digits, rfl, isDigits⟩ := Number.skipDigits_eq_ok places
      obtain ⟨exponent, behind, isExponent⟩ := power 'E' (by simp) skipped
      exact ⟨_, exponent, by simp [behind], .places isDigits, isExponent⟩
    · rename_i places
      cases skipped
      obtain ⟨digits, rfl, isDigits⟩ := Number.skipDigits_eq_ok places
      exact ⟨_, [], by simp, .places isDigits, .none⟩
  · obtain ⟨exponent, behind, isExponent⟩ := power 'e' (by simp) skipped
    exact ⟨[], exponent, behind, .none, isExponent⟩
  · obtain ⟨exponent, behind, isExponent⟩ := power 'E' (by simp) skipped
    exact ⟨[], exponent, behind, .none, isExponent⟩
  · cases skipped
    exact ⟨[], [], rfl, .none, .none⟩

private theorem Number.skipFraction_append {fraction exponent rest : List Char}
    (isFraction : IsFraction fraction) (isExponent : IsExponent exponent) (ends : EndsNumber rest) :
    Number.skipFraction (fraction ++ (exponent ++ rest)) = .ok rest := by
  have noDigit : ∀ character, rest.head? = some character → character.isDigit = false :=
    fun character front => (ends character front).1
  have noLetter : ∀ character, rest.head? = some character → character ∉ ['.', 'e', 'E'] :=
    fun character front => (ends character front).2
  cases isFraction with
  | none =>
    cases isExponent with
    | none =>
      cases rest with
      | nil => rfl
      | cons first later =>
        have others := noLetter first rfl
        simp only [List.mem_cons, List.not_mem_nil, or_false, not_or] at others
        simp [Number.skipFraction, others]
    | power isLetter isSign isDigits =>
      have skipped := Number.skipExponent_append isSign isDigits noDigit
      simp only [List.mem_cons, List.not_mem_nil, or_false] at isLetter
      rcases isLetter with rfl | rfl
      · simpa [Number.skipFraction] using skipped
      · simpa [Number.skipFraction] using skipped
  | places isPlaces =>
    cases isExponent with
    | none =>
      have places := Number.skipDigits_append isPlaces noDigit
      simp only [List.cons_append, List.nil_append, Number.skipFraction, places]
      split
      · rename_i failed
        cases failed
      · rename_i same
        cases same
        exact absurd (noLetter 'e' rfl) (by simp)
      · rename_i same
        cases same
        exact absurd (noLetter 'E' rfl) (by simp)
      · rename_i same
        exact same.symm
    | @power letter sign digits isLetter isSign isDigits =>
      have skipped := Number.skipExponent_append isSign isDigits noDigit
      simp only [List.mem_cons, List.not_mem_nil, or_false] at isLetter
      rcases isLetter with rfl | rfl
      · have places := @Number.skipDigits_append _ ('e' :: (sign ++ (digits ++ rest))) isPlaces
          (by rintro _ ⟨⟩; rfl)
        simpa [Number.skipFraction, places] using skipped
      · have places := @Number.skipDigits_append _ ('E' :: (sign ++ (digits ++ rest))) isPlaces
          (by rintro _ ⟨⟩; rfl)
        simpa [Number.skipFraction, places] using skipped

/-- Passing over a number from behind its sign takes the rest of one. -/
theorem Number.skip_eq_ok {text rest : List Char} (skipped : Number.skip text = .ok rest) :
    ∃ whole fraction exponent, text = whole ++ (fraction ++ (exponent ++ rest)) ∧
      IsWhole whole ∧ IsFraction fraction ∧ IsExponent exponent := by
  unfold Number.skip at skipped
  split at skipped
  · cases skipped
  · rename_i first behind
    split at skipped
    · rename_i zero
      subst zero
      split at skipped
      · cases skipped
      · obtain ⟨fraction, exponent, rfl, parts⟩ := Number.skipFraction_eq_ok skipped
        exact ⟨['0'], fraction, exponent, rfl, .zero, parts⟩
    · rename_i notZero
      split at skipped
      · rename_i isDigit
        obtain ⟨fraction, exponent, later, parts⟩ := Number.skipFraction_eq_ok skipped
        refine ⟨first :: behind.takeWhile Char.isDigit, fraction, exponent, ?_, ?_, parts⟩
        · rw [← later, List.cons_append, List.takeWhile_append_dropWhile]
        · refine .digits notZero ⟨List.cons_ne_nil _ _, ?_⟩
          exact List.forall_mem_cons.mpr ⟨isDigit, fun _ => isDigit_of_mem_takeWhile⟩
      · cases skipped

theorem Number.skip_append {whole fraction exponent rest : List Char} (isWhole : IsWhole whole)
    (isFraction : IsFraction fraction) (isExponent : IsExponent exponent)
    (ends : EndsNumber rest) :
    Number.skip (whole ++ (fraction ++ (exponent ++ rest))) = .ok rest := by
  have skipped := Number.skipFraction_append isFraction isExponent ends
  have noDigit : ∀ character, (fraction ++ (exponent ++ rest)).head? = some character →
      character.isDigit = false := by
    intro character front
    cases isFraction with
    | places => cases front; rfl
    | none =>
      cases isExponent with
      | none => exact (ends character front).1
      | power isLetter =>
        cases front
        simp only [List.mem_cons, List.not_mem_nil, or_false] at isLetter
        rcases isLetter with rfl | rfl <;> rfl
  cases isWhole with
  | zero =>
    have noMore : ((fraction ++ (exponent ++ rest)).head?.any Char.isDigit) = false := by
      cases front : (fraction ++ (exponent ++ rest)).head? with
      | none => rfl
      | some character => exact noDigit character front
    simp only [List.cons_append, List.nil_append, Number.skip, if_true, noMore,
      Bool.false_eq_true, if_false, skipped]
  | digits notZero isDigits =>
    obtain ⟨isDigit, later⟩ := List.forall_mem_cons.mp isDigits.areDigits
    simp only [List.cons_append, Number.skip, notZero, isDigit, if_true, if_false,
      dropWhile_digits later noDigit, skipped]

end ChatHub.Json
