import ChatHub.Wire.Record
/-!
A whole line of text as one record, with nothing but white space around it. Main definition:
`decodeLine`, which gives the record or the first fault and its column.
-/

set_option autoImplicit false

namespace ChatHub.Wire

open Json

theorem scanMember_length_lt {α : Type} {format : Format α} {slots filled : Slots}
    {text rest : List Char} (scanned : scanMember format slots text = .ok (filled, rest)) :
    rest.length < text.length := by
  unfold scanMember at scanned
  split at scanned
  · simp at scanned
  · rename_i named
    have name := Quoted.scan_length_lt named
    split at scanned
    · split at scanned
      · simp [failHere] at scanned
      · split at scanned
        · simp at scanned
        · rename_i colon
          have behindColon := skipColon_length_lt colon
          split at scanned
          · simp at scanned
          · rename_i string
            have behindString := scanString_length_lt string
            simp only [Except.ok.injEq, Prod.mk.injEq] at scanned
            rw [← scanned.2]
            omega
    · split at scanned
      · simp at scanned
      · rename_i colon
        have behindColon := skipColon_length_lt colon
        split at scanned
        · simp at scanned
        · rename_i skipped
          have behindValue := skipValue_length_le skipped
          simp only [Except.ok.injEq, Prod.mk.injEq] at scanned
          rw [← scanned.2]
          omega

/-- Reads the members of an object up to its closing brace. Behind the first member a comma comes
before each further one. -/
def scanMembers {α : Type} (format : Format α) (isFirst : Bool) (slots : Slots)
    (text : List Char) : Scan α :=
  match front : skipBlank text with
  | [] => failHere .endOfObject []
  | first :: rest =>
    have := length_lt_of_skipBlank front
    if first = '\x7d' then buildAt format slots rest
    else if isFirst then
      if first = '"' then
        match member : scanMember format slots rest with
        | .error failure => .error failure
        | .ok (slots, rest) =>
          have := scanMember_length_lt member
          scanMembers format false slots rest
      else failAtNext .keyNotString (first :: rest)
    else if first = ',' then
      match behind : skipBlank rest with
      | [] => failHere .endOfValue []
      | first :: rest =>
        have := length_lt_of_skipBlank behind
        if first = '"' then
          match member : scanMember format slots rest with
          | .error failure => .error failure
          | .ok (slots, rest) =>
            have := scanMember_length_lt member
            scanMembers format false slots rest
        else if first = '\x7d' then failAtNext .trailingComma (first :: rest)
        else failAtNext .keyNotString (first :: rest)
    else failAtNext .expectedObjectCommaOrEnd (first :: rest)
termination_by text.length

/-- Reads the record in front of a text, from an object or from a list. -/
def scanRecord {α : Type} (format : Format α) (text : List Char) : Scan α :=
  match skipBlank text with
  | [] => failHere .endOfValue []
  | first :: rest =>
    if first = '\x7b' then scanMembers format true {} rest
    else if first = '[' then
      match scanElements format 0 {} format.fields rest with
      | .error failure => .error failure
      | .ok (slots, rest) =>
        match scanListEnd rest with
        | .error failure => .error failure
        | .ok rest => buildAt format slots rest
    else refuse format.expected first rest

def decodeLine {α : Type} (format : Format α) (line : List Char) : Except Failure α :=
  match scanRecord format line with
  | .error failure => .error failure
  | .ok (record, rest) =>
    match skipBlank rest with
    | [] => .ok record
    | behind => failAtNext .trailingCharacters behind

end ChatHub.Wire
