import ChatHub.Json.Skip
import ChatHub.Message
import ChatHub.Text.Shown
/-!
One line of text as a record whose fields are all strings. An object names its fields in any order
and may have other members, which are passed over; a list gives the fields in their order.
-/

set_option autoImplicit false

namespace ChatHub.Wire

open Json

inductive Field where
  | sender
  | text
  | timestamp
  deriving DecidableEq, Repr

def Field.name : Field → String
  | .sender => "sender"
  | .text => "message"
  | .timestamp => "timestamp"

/-- The fields read so far. -/
structure Slots where
  sender : Option String := none
  text : Option String := none
  timestamp : Option String := none
  deriving DecidableEq, Repr

def Slots.get? (slots : Slots) : Field → Option String
  | .sender => slots.sender
  | .text => slots.text
  | .timestamp => slots.timestamp

def Slots.set (slots : Slots) (field : Field) (value : String) : Slots :=
  match field with
  | .sender => { slots with sender := some value }
  | .text => { slots with text := some value }
  | .timestamp => { slots with timestamp := some value }

/-- How a kind of message is read and written: its name in errors, its fields in order, the record
that filled slots make, and the value that a record has in each field. `build` names the first
field that is missing. -/
structure Format (α : Type) where
  name : String
  fields : List Field
  build : Slots → Except Field α
  value : α → Field → String

def Format.expected {α : Type} (format : Format α) : String :=
  "struct " ++ format.name

def Format.expectedElements {α : Type} (format : Format α) : String :=
  format.expected ++ " with " ++ toString format.fields.length ++ " elements"

def Format.field? {α : Type} (format : Format α) (name : List Char) : Option Field :=
  format.fields.find? fun field => field.name.toList == name

def inboundFormat : Format Inbound where
  name := "InboundMessage"
  fields := [.sender, .text]
  build slots :=
    match slots.sender, slots.text with
    | none, _ => .error .sender
    | _, none => .error .text
    | some sender, some text => .ok { sender, text }
  value message
    | .sender => message.sender
    | .text => message.text
    | .timestamp => ""

def stampedFormat : Format Stamped where
  name := "ChatMessage"
  fields := [.sender, .text, .timestamp]
  build slots :=
    match slots.sender, slots.text, slots.timestamp with
    | none, _, _ => .error .sender
    | _, none, _ => .error .text
    | _, _, none => .error .timestamp
    | some sender, some text, some timestamp => .ok { sender, text, timestamp }
  value message
    | .sender => message.sender
    | .text => message.text
    | .timestamp => message.timestamp

/-- Names the value in front of a text that should have been something else. A bracket is not
taken; of any other value the whole is, and a fault inside it is reported instead. -/
def refuse {α : Type} (expected : String) (first : Char) (rest : List Char) :
    Except Failure α :=
  let word (found : Found) (letters : List Char) : Except Failure α :=
    match skipWord rest letters with
    | .error failure => .error failure
    | .ok behind => failHere (.invalidType found expected) behind
  let number (negative : Bool) (digits : List Char) : Except Failure α :=
    match Number.scan negative digits with
    | .error failure => .error failure
    | .ok (found, behind) => failHere (.invalidType found expected) behind
  match first with
  | 'n' => word .null ['u', 'l', 'l']
  | 't' => word (.boolean true) ['r', 'u', 'e']
  | 'f' => word (.boolean false) ['a', 'l', 's', 'e']
  | '-' => number true rest
  | '"' =>
    match Quoted.scan rest with
    | .error failure => .error failure
    | .ok (string, behind) =>
      failHere (.invalidType (.text (Text.shown string)) expected) behind
  | '[' => failHere (.invalidType .sequence expected) (first :: rest)
  | '\x7b' => failHere (.invalidType .map expected) (first :: rest)
  | _ =>
    if first.isDigit then number false (first :: rest)
    else failAtNext .expectedValue (first :: rest)

def scanString (text : List Char) : Scan String :=
  match skipBlank text with
  | [] => failHere .endOfValue []
  | first :: rest =>
    if first = '"' then
      match Quoted.scan rest with
      | .error failure => .error failure
      | .ok (string, behind) => .ok (String.ofList string, behind)
    else refuse "a string" first rest

theorem scanString_length_lt {text rest : List Char} {string : String}
    (scanned : scanString text = .ok (string, rest)) : rest.length < text.length := by
  unfold scanString at scanned
  split at scanned
  · simp [failHere] at scanned
  · rename_i front
    have shorter := length_lt_of_skipBlank front
    split at scanned
    · split at scanned
      · simp at scanned
      · rename_i quoted
        have inner := Quoted.scan_length_lt quoted
        simp only [Except.ok.injEq, Prod.mk.injEq] at scanned
        rw [← scanned.2]
        omega
    · unfold refuse at scanned
      simp only [failHere, failAtNext] at scanned
      repeat' split at scanned
      all_goals simp at scanned

/-- Reads the elements of a list into the fields in order; `index` counts those before. -/
def scanElements {α : Type} (format : Format α) (index : Nat) (slots : Slots)
    (fields : List Field) (text : List Char) : Scan Slots :=
  match fields with
  | [] => .ok (slots, text)
  | field :: fields =>
    let next (text : List Char) : Scan Slots :=
      match scanString text with
      | .error failure => .error failure
      | .ok (string, rest) => scanElements format (index + 1) (slots.set field string) fields rest
    match skipBlank text with
    | [] => failHere .endOfList []
    | first :: rest =>
      if first = ']' then failHere (.invalidLength index format.expectedElements) rest
      else if index = 0 then next (first :: rest)
      else if first = ',' then
        match skipBlank rest with
        | [] => failHere .endOfValue []
        | first :: rest =>
          if first = ']' then failAtNext .trailingComma (first :: rest) else next (first :: rest)
      else failAtNext .expectedListCommaOrEnd (first :: rest)

/-- Takes the end of a list whose fields are all read. -/
def scanListEnd (text : List Char) : Except Failure (List Char) :=
  match skipBlank text with
  | [] => failHere .endOfList []
  | first :: rest =>
    if first = ']' then .ok rest
    else if first = ',' then
      let behind := skipBlank rest
      if behind.head? = some ']' then failAtNext .trailingComma behind
      else failAtNext .trailingCharacters behind
    else failAtNext .trailingCharacters (first :: rest)

/-- Where a fault about the fields of an object is placed: behind a closing brace that follows, or
else behind the white space. -/
def behindObject (text : List Char) : List Char :=
  match skipBlank text with
  | '\x7d' :: rest => rest
  | rest => rest

/-- The record that the slots make, at the end of its object. -/
def buildAt {α : Type} (format : Format α) (slots : Slots) (text : List Char) : Scan α :=
  match format.build slots with
  | .ok record => .ok (record, text)
  | .error field => failHere (.missingField field.name) text

/-- Reads one member of an object from behind the quote that opens its name. A field may come only
once; what belongs to no field is passed over. -/
def scanMember {α : Type} (format : Format α) (slots : Slots) (text : List Char) : Scan Slots :=
  match Quoted.scan text with
  | .error failure => .error failure
  | .ok (name, rest) =>
    match format.field? name with
    | some field =>
      if (slots.get? field).isSome then
        failHere (.duplicateField field.name) (behindObject rest)
      else
        match skipColon rest with
        | .error failure => .error failure
        | .ok rest =>
          match scanString rest with
          | .error failure => .error failure
          | .ok (string, rest) => .ok (slots.set field string, rest)
    | none =>
      match skipColon rest with
      | .error failure => .error failure
      | .ok rest =>
        match skipValue rest with
        | .error failure => .error failure
        | .ok rest => .ok (slots, rest)

end ChatHub.Wire
