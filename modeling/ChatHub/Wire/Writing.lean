import ChatHub.Wire.Record
import ChatHub.Wire.Frame
/-!
Messages as lines: an object with the fields in order, no white space, and a line feed. A sink may
have room for only so many bytes; it takes what fits, and the line that did not fit fails.
-/

set_option autoImplicit false

namespace ChatHub.Wire

open Json

def renderMember (field : Field) (value : String) : List Char :=
  Quoted.encode field.name.toList ++ ':' :: Quoted.encode value.toList

def renderMembers : List (Field × String) → List Char
  | [] => []
  | [(field, value)] => renderMember field value
  | (field, value) :: rest => renderMember field value ++ ',' :: renderMembers rest

def Format.render {α : Type} (format : Format α) (message : α) : List Char :=
  '\x7b' :: (renderMembers (format.fields.map fun field => (field, format.value message field))
    ++ ['\x7d'])

def encodeLine {α : Type} (format : Format α) (message : α) : List UInt8 :=
  Utf8.encode (format.render message) ++ [lineFeed]

/-- A place for bytes. `room` is absent if it holds any number of them. -/
structure Sink where
  written : List UInt8 := []
  room : Option Nat := none
  deriving DecidableEq, Repr

/-- Takes the bytes that fit and says whether all did. -/
def Sink.write (sink : Sink) (bytes : List UInt8) : Sink × Bool :=
  match sink.room with
  | none => ({ sink with written := sink.written ++ bytes }, true)
  | some room =>
    let taken := bytes.take room
    (⟨sink.written ++ taken, some (room - taken.length)⟩, taken.length = bytes.length)

inductive WriteError where
  /-- The sink took no more before the line was complete. -/
  | writeZero
  deriving DecidableEq, Repr

def WriteError.message : WriteError → String
  | .writeZero => "write zero"

/-- Writes a message as a line. Of a line that does not fit, the sink keeps what did. -/
def Sink.writeMessage {α : Type} (sink : Sink) (format : Format α) (message : α) :
    Except WriteError Unit × Sink :=
  let (sink, complete) := sink.write (encodeLine format message)
  (if complete then .ok () else .error .writeZero, sink)

end ChatHub.Wire
