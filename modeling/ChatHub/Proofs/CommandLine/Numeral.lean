import ChatHub.CommandLine.Number
import Mathlib.Algebra.GroupWithZero.Nat
/-!
Which texts stand for a number. The readers of numbers accept exactly these, up to their bounds.
Main statements: `natural_eq_ok_iff`, `positive64_eq_ok_iff` and `port_eq_ok_iff`.
-/

set_option autoImplicit false

namespace ChatHub.CommandLine

/-- A text without the plus sign that may stand in front of it. -/
def unsigned (text : String) : List Char :=
  match text.toList with
  | '+' :: rest => rest
  | characters => characters

/-- A text that stands for a number: decimal digits, behind a plus sign or not. -/
structure Denotes (text : String) (value : Nat) : Prop where
  nonempty : unsigned text ≠ []
  isDigit : ∀ character ∈ unsigned text, character.isDigit = true
  value_eq : Nat.ofDigitChars 10 (unsigned text) 0 = value

instance (text : String) (value : Nat) : Decidable (Denotes text value) :=
  decidable_of_iff
    (unsigned text ≠ [] ∧ (unsigned text).all Char.isDigit = true ∧
      Nat.ofDigitChars 10 (unsigned text) 0 = value)
    ⟨fun ⟨nonempty, isDigit, same⟩ => ⟨nonempty, List.all_eq_true.mp isDigit, same⟩,
      fun denotes =>
        ⟨denotes.nonempty, List.all_eq_true.mpr denotes.isDigit, denotes.value_eq⟩⟩

theorem Denotes.unique {text : String} {one other : Nat} (first : Denotes text one)
    (second : Denotes text other) : one = other :=
  first.value_eq.symm.trans second.value_eq

theorem Denotes.head?_ne_dash {text : String} {value : Nat} (denotes : Denotes text value) :
    text.toList.head? ≠ some '-' := by
  intro dash
  obtain ⟨rest, parts⟩ : ∃ rest, text.toList = '-' :: rest := by
    cases characters : text.toList with
    | nil => simp [characters] at dash
    | cons first rest =>
      rw [characters, List.head?_cons, Option.some.injEq] at dash
      exact ⟨rest, by rw [dash]⟩
  have first : '-' ∈ unsigned text := by simp [unsigned, parts]
  exact absurd (denotes.isDigit '-' first) (by decide)

/-! ## Digits -/

private theorem le_ofDigitChars (digits : List Char) (value : Nat) :
    value ≤ Nat.ofDigitChars 10 digits value := by
  induction digits generalizing value with
  | nil => exact Nat.le_refl value
  | cons character rest ih =>
    have later := ih (10 * value + (character.toNat - '0'.toNat))
    rw [Nat.ofDigitChars_cons]
    omega

namespace Number

/-- Reading stops where the number is beyond the limit, and digits only add to it. -/
theorem digits_eq_ok_iff {limit : Nat} (tooFar : NumberFault) {value result : Nat}
    (within : value ≤ limit) (text : List Char) :
    digits limit tooFar value text = .ok result ↔
      (∀ character ∈ text, character.isDigit = true) ∧
        Nat.ofDigitChars 10 text value = result ∧ result ≤ limit := by
  induction text generalizing value with
  | nil =>
    simp only [digits, Nat.ofDigitChars_nil, List.not_mem_nil, false_implies, implies_true,
      true_and, Except.ok.injEq]
    constructor
    · rintro rfl
      exact ⟨rfl, within⟩
    · exact And.left
  | cons character rest ih =>
    simp only [digits, Nat.ofDigitChars_cons, List.forall_mem_cons]
    cases isDigit : character.isDigit with
    | false => simp
    | true =>
      simp only [Bool.not_true, Bool.false_eq_true, if_false, true_and]
      split
      · rename_i beyond
        have more := le_ofDigitChars rest (10 * value + (character.toNat - '0'.toNat))
        constructor
        · intro impossible
          cases impossible
        · rintro ⟨_, rfl, small⟩
          omega
      · rename_i small
        exact ih (Nat.le_of_not_lt small)

/-- Digits behind a sign, or digits alone: there has to be one. -/
theorem signed_eq_ok_iff {limit result : Nat} (tooFar : NumberFault) (text : List Char) :
    signed limit tooFar text = .ok result ↔
      text ≠ [] ∧ (∀ character ∈ text, character.isDigit = true) ∧
        Nat.ofDigitChars 10 text 0 = result ∧ result ≤ limit := by
  cases text with
  | nil => simp [signed]
  | cons first rest =>
    simp only [signed, List.isEmpty_cons, Bool.false_eq_true, if_false, ne_eq, reduceCtorEq,
      not_false_eq_true, true_and]
    exact digits_eq_ok_iff tooFar (Nat.zero_le limit) (first :: rest)

private theorem natural_eq_signed {limit : Nat} {text : String} (nonempty : text.toList ≠ []) :
    natural limit text = signed limit .tooLarge (unsigned text) := by
  simp only [natural, unsigned]
  split
  · contradiction
  · rename_i parts
    simp [parts]
  · simp [signed, nonempty]

theorem natural_eq_ok_iff {limit value : Nat} {text : String} :
    natural limit text = .ok value ↔ Denotes text value ∧ value ≤ limit := by
  by_cases empty : text.toList = []
  · have bare : unsigned text = [] := by simp [unsigned, empty]
    constructor
    · simp [natural, empty]
    · rintro ⟨denotes, _⟩
      exact absurd bare denotes.nonempty
  · rw [natural_eq_signed empty, signed_eq_ok_iff]
    constructor
    · rintro ⟨nonempty, isDigit, same, within⟩
      exact ⟨⟨nonempty, isDigit, same⟩, within⟩
    · rintro ⟨⟨nonempty, isDigit, same⟩, within⟩
      exact ⟨nonempty, isDigit, same, within⟩

theorem natural64_eq_ok_iff {value : Nat} {text : String} :
    natural64 text = .ok value ↔ Denotes text value ∧ value < 2 ^ 64 := by
  rw [natural64, natural_eq_ok_iff]
  exact and_congr_right fun _ => Nat.lt_iff_le_pred (by decide) |>.symm

theorem positive64_eq_ok_iff {value : Nat} {text : String} :
    positive64 text = .ok value ↔ Denotes text value ∧ 0 < value ∧ value < 2 ^ 64 := by
  have read := @natural64_eq_ok_iff value text
  simp only [positive64]
  split
  · rename_i zero
    constructor
    · intro impossible
      cases impossible
    · rintro ⟨denotes, positive, small⟩
      cases zero.symm.trans (read.mpr ⟨denotes, small⟩)
      cases positive
  · rename_i notZero
    rw [read]
    constructor
    · rintro ⟨denotes, small⟩
      refine ⟨denotes, Nat.pos_of_ne_zero ?_, small⟩
      rintro rfl
      exact notZero (read.mpr ⟨denotes, small⟩)
    · rintro ⟨denotes, _, small⟩
      exact ⟨denotes, small⟩

/-- In front of a number that is read with a sign, a plus sign makes no difference. -/
theorem integer64_eq {text : String} (noDash : text.toList.head? ≠ some '-') :
    integer64 text = (natural (Nat.pow 2 63 - 1) text).map Int.ofNat := by
  simp only [integer64, natural]
  cases characters : text.toList with
  | nil => rfl
  | cons first rest =>
    have notDash : first ≠ '-' := by
      rintro rfl
      simp [characters] at noDash
    split <;> simp_all

theorem port_eq_ok_iff {value : Nat} {text : String} (noDash : text.toList.head? ≠ some '-') :
    port text = .ok value ↔ Denotes text value ∧ value < 2 ^ 16 := by
  simp only [port, integer64_eq noDash]
  cases read : natural (Nat.pow 2 63 - 1) text with
  | error fault =>
    constructor
    · intro impossible
      cases impossible
    · rintro ⟨denotes, small⟩
      have within : value ≤ Nat.pow 2 63 - 1 := by
        rw [show Nat.pow 2 63 = 2 ^ 63 from rfl]
        omega
      cases read.symm.trans (natural_eq_ok_iff.mpr ⟨denotes, within⟩)
  | ok found =>
    have denotes := (natural_eq_ok_iff.mp read).1
    simp only [Except.map]
    constructor
    · intro accepted
      split at accepted
      · cases accepted
      · rename_i inside
        cases accepted
        simp only [Int.ofNat_eq_natCast] at inside
        refine ⟨denotes, ?_⟩
        rw [Int.ofNat_eq_natCast, Int.toNat_natCast]
        omega
    · rintro ⟨same, small⟩
      obtain rfl := denotes.unique same
      rw [if_neg (by simp only [Int.ofNat_eq_natCast]; omega)]
      rfl

end Number

end ChatHub.CommandLine
