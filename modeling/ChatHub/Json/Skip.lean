import ChatHub.Json.Number
import ChatHub.Json.Quoted
/-!
Passing over a value nobody asked for. Only its syntax is checked: numbers have no range and
strings may hold lone surrogates. Open brackets are kept in a list, so any depth is fine.
-/

set_option autoImplicit false

namespace ChatHub.Json

inductive Bracket where
  | list
  | object
  deriving DecidableEq, Repr

/-- What is wrong when the text ends inside the bracket. -/
def Bracket.atEnd : Bracket → Cause
  | .list => .endOfList
  | .object => .endOfObject

/-- What is wrong when neither a comma nor the closing bracket follows a value. -/
def Bracket.afterValue : Bracket → Cause
  | .list => .expectedListCommaOrEnd
  | .object => .expectedObjectCommaOrEnd

def Bracket.closing : Bracket → Char
  | .list => ']'
  | .object => '\x7d'

/-- What has to come next: a value, the name of an object's member, or whatever may stand behind
a value or behind a bracket just opened. -/
inductive Expecting where
  | value
  | name
  | behindValue
  | behindBracket
  deriving DecidableEq, Repr

def skipWord (text : List Char) : List Char → Except Failure (List Char)
  | [] => .ok text
  | letter :: word =>
    match text with
    | [] => failHere .endOfValue []
    | first :: rest => if first = letter then skipWord rest word else failAtNext .expectedIdent text

/-- Passes over a value without brackets, given its first character; absent if no such value
starts with it. -/
def skipScalar? (first : Char) (rest : List Char) : Option (Except Failure (List Char)) :=
  match first with
  | 'n' => some (skipWord rest ['u', 'l', 'l'])
  | 't' => some (skipWord rest ['r', 'u', 'e'])
  | 'f' => some (skipWord rest ['a', 'l', 's', 'e'])
  | '"' => some (Quoted.skip rest)
  | '-' => some (Number.skip rest)
  | _ => if first.isDigit then some (Number.skip (first :: rest)) else none

def Bracket.ofOpening? (first : Char) : Option Bracket :=
  if first = '[' then some .list else if first = '\x7b' then some .object else none

def skipColon (text : List Char) : Except Failure (List Char) :=
  match skipBlank text with
  | [] => failHere .endOfObject []
  | first :: rest =>
    if first = ':' then .ok rest else failAtNext .expectedColon (first :: rest)

theorem skipWord_length_le {word text rest : List Char}
    (skipped : skipWord text word = .ok rest) : rest.length ≤ text.length := by
  induction word generalizing text with
  | nil =>
    simp only [skipWord, Except.ok.injEq] at skipped
    simp [skipped]
  | cons letter word ih =>
    cases text with
    | nil => simp [skipWord, failHere] at skipped
    | cons first tail =>
      simp only [skipWord] at skipped
      split at skipped
      · have shorter := ih skipped
        simp only [List.length_cons]
        omega
      · simp [failAtNext] at skipped

theorem skipScalar?_length_le {first : Char} {text rest : List Char}
    (skipped : skipScalar? first text = some (.ok rest)) : rest.length ≤ text.length := by
  unfold skipScalar? at skipped
  split at skipped
  · exact skipWord_length_le (by simpa using skipped)
  · exact skipWord_length_le (by simpa using skipped)
  · exact skipWord_length_le (by simpa using skipped)
  · exact Nat.le_of_lt (Quoted.skip_length_lt (by simpa using skipped))
  · exact Nat.le_of_lt (Number.skip_length_lt (by simpa using skipped))
  · split at skipped
    · have shorter : rest.length < (first :: text).length :=
        Number.skip_length_lt (by simpa using skipped)
      simpa using Nat.le_of_lt_succ shorter
    · simp at skipped

theorem skipColon_length_lt {text rest : List Char}
    (skipped : skipColon text = .ok rest) : rest.length < text.length := by
  unfold skipColon at skipped
  split at skipped
  · simp [failHere] at skipped
  · rename_i front
    have shorter := length_lt_of_skipBlank front
    split at skipped
    · simp only [Except.ok.injEq] at skipped
      simpa [← skipped] using shorter
    · simp [failAtNext] at skipped

/-- Passes over what is expected and over everything that the open brackets still need, innermost
bracket first. -/
def skipFrom (expecting : Expecting) (brackets : List Bracket) (text : List Char) :
    Except Failure (List Char) :=
  match expecting, brackets with
  | .value, brackets =>
    match front : skipBlank text with
    | [] => failHere .endOfValue []
    | first :: rest =>
      have := length_lt_of_skipBlank front
      match Bracket.ofOpening? first with
      | some bracket => skipFrom .behindBracket (bracket :: brackets) rest
      | none =>
        match scalar : skipScalar? first rest with
        | none => failAtNext .expectedValue (first :: rest)
        | some (.error failure) => .error failure
        | some (.ok rest) =>
          have := skipScalar?_length_le scalar
          skipFrom .behindValue brackets rest
  | .name, brackets =>
    match front : skipBlank text with
    | [] => failHere .endOfObject []
    | first :: rest =>
      have := length_lt_of_skipBlank front
      if first = '"' then
        match name : Quoted.skip rest with
        | .error failure => .error failure
        | .ok rest =>
          have := Quoted.skip_length_lt name
          match colon : skipColon rest with
          | .error failure => .error failure
          | .ok rest =>
            have := skipColon_length_lt colon
            skipFrom .value brackets rest
      else failAtNext .keyNotString (first :: rest)
  | .behindValue, [] => .ok text
  | .behindValue, bracket :: brackets =>
    match front : skipBlank text with
    | [] => failHere bracket.atEnd []
    | first :: rest =>
      have := length_lt_of_skipBlank front
      if first = ',' then
        match bracket with
        | .list => skipFrom .value (bracket :: brackets) rest
        | .object => skipFrom .name (bracket :: brackets) rest
      else if first = bracket.closing then skipFrom .behindValue brackets rest
      else failAtNext bracket.afterValue (first :: rest)
  | .behindBracket, [] => .ok text
  | .behindBracket, bracket :: brackets =>
    match front : skipBlank text with
    | [] => failHere bracket.atEnd []
    | first :: rest =>
      have := length_lt_of_skipBlank front
      if first = bracket.closing then skipFrom .behindValue brackets rest
      else
        match bracket with
        | .list => skipFrom .value (bracket :: brackets) (first :: rest)
        | .object => skipFrom .name (bracket :: brackets) (first :: rest)
termination_by 2 * text.length + if expecting = .behindBracket then 1 else 0
decreasing_by
  all_goals simp_all
  all_goals omega

def skipValue (text : List Char) : Except Failure (List Char) :=
  skipFrom .value [] text

theorem skipFrom_length_le {expecting : Expecting} {brackets : List Bracket}
    {text rest : List Char} (skipped : skipFrom expecting brackets text = .ok rest) :
    rest.length ≤ text.length := by
  fun_induction skipFrom expecting brackets text
  all_goals simp_all [failHere, failAtNext]
  all_goals omega

theorem skipValue_length_le {text rest : List Char} (skipped : skipValue text = .ok rest) :
    rest.length ≤ text.length :=
  skipFrom_length_le skipped

end ChatHub.Json
