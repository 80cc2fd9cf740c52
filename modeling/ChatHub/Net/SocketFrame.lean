import ChatHub.Net.WebSocket
import ChatHub.Text.Utf8
/-!
WebSocket frames, as a server reads them from a client and writes them to it. What a client sends
has to be masked, control frames are short and whole, and the text of a message has to be UTF-8;
a message may come in several frames. Anything else ends the stream. What a server sends is whole
and not masked.
-/

set_option autoImplicit false

namespace ChatHub

/-- One frame with its payload unmasked. -/
structure SocketFrame where
  final : Bool
  opcode : Nat
  payload : List UInt8
  deriving DecidableEq, Repr

inductive FrameScan where
  | incomplete
  | malformed
  | frame (frame : SocketFrame) (rest : List UInt8)
  deriving DecidableEq, Repr

namespace SocketFrame

def longest : Nat :=
  16 * Nat.pow 2 20

def number (bytes : List UInt8) : Nat :=
  bytes.foldl (fun value byte => 256 * value + byte.toNat) 0

/-- The last bytes of a number, the most significant first. -/
def bigEndian : Nat → Nat → List UInt8
  | 0, _ => []
  | count + 1, value => bigEndian count (value / 256) ++ [UInt8.ofNat (value % 256)]

def unmask (key : List UInt8) (payload : List UInt8) : List UInt8 :=
  payload.mapIdx fun index byte => byte ^^^ key.getD (index % 4) 0

def known (opcode : Nat) : Bool :=
  opcode ≤ 2 || (8 ≤ opcode && opcode ≤ 10)

def isControl (opcode : Nat) : Bool :=
  8 ≤ opcode

/-- How many bytes behind the second one hold the length, for its seven bits. -/
def lengthBytes (short : Nat) : Nat :=
  if short = 126 then 2 else if short = 127 then 8 else 0

def scanPayload (final masked : Bool) (opcode length : Nat) (bytes : List UInt8) : FrameScan :=
  if longest < length then .malformed
  else if bytes.length < (if masked then 4 else 0) + length then .incomplete
  else if !masked || (isControl opcode && (!final || 125 < length)) then .malformed
  else
    let behind := bytes.drop 4
    .frame ⟨final, opcode, unmask (bytes.take 4) (behind.take length)⟩ (behind.drop length)

def scan : List UInt8 → FrameScan
  | first :: second :: rest =>
    let flags := first.toNat / 16
    let opcode := first.toNat % 16
    let masked := 128 ≤ second.toNat
    let short := second.toNat % 128
    if flags % 8 ≠ 0 || !known opcode then .malformed
    else if rest.length < lengthBytes short then .incomplete
    else
      let length := if short < 126 then short else number (rest.take (lengthBytes short))
      scanPayload (8 ≤ flags) masked opcode length (rest.drop (lengthBytes short))
  | _ => .incomplete

/-! ### Writing -/

def firstByte (frame : SocketFrame) : UInt8 :=
  UInt8.ofNat ((if frame.final then 128 else 0) + frame.opcode)

/-- The length of a payload in the shortest form. `bit` is put to its first byte. -/
def lengthField (bit length : Nat) : List UInt8 :=
  if length < 126 then [UInt8.ofNat (bit + length)]
  else if length < Nat.pow 2 16 then UInt8.ofNat (bit + 126) :: bigEndian 2 length
  else UInt8.ofNat (bit + 127) :: bigEndian 8 length

def encode (frame : SocketFrame) : List UInt8 :=
  frame.firstByte :: lengthField 0 frame.payload.length ++ frame.payload

/-- A frame as a client writes it with a key of four bytes. -/
def encodeMasked (key : List UInt8) (frame : SocketFrame) : List UInt8 :=
  frame.firstByte :: lengthField 128 frame.payload.length ++ key ++ unmask key frame.payload

def ofText (text : String) : SocketFrame :=
  ⟨true, 1, Utf8.encode text.toList⟩

/-- A frame that says what an event says. A stream that broke says nothing. -/
def ofEvent? : SocketEvent → Option SocketFrame
  | .text text => some (ofText text)
  | .binary bytes => some ⟨true, 2, bytes⟩
  | .ping bytes => some ⟨true, 9, bytes⟩
  | .pong bytes => some ⟨true, 10, bytes⟩
  | .close => some ⟨true, 8, []⟩
  | .failed => none

/-- What a server answers at once: a ping with its bytes, and a close with a close. -/
def reply? : SocketEvent → Option SocketFrame
  | .ping bytes => some ⟨true, 10, bytes⟩
  | .close => some ⟨true, 8, []⟩
  | _ => none

end SocketFrame

/-- A stream under way: bytes of a frame that is not complete, the message whose frames have not
all come, and whether the stream is over. -/
structure FrameReader where
  held : List UInt8 := []
  message : Option (Nat × List UInt8) := none
  isOver : Bool := false
  deriving DecidableEq, Repr, Inhabited

namespace FrameReader

def longestMessage : Nat :=
  64 * Nat.pow 2 20

/-- Whether no more bytes can make the beginning of a message good. -/
def isBroken (opcode : Nat) (payload : List UInt8) : Bool :=
  longestMessage < payload.length
    || opcode = 1 &&
      match Utf8.decode payload with
      | .ok _ => false
      | .error fault => fault.length.isSome

def eventOf (opcode : Nat) (payload : List UInt8) : SocketEvent :=
  if opcode = 1 then
    match Utf8.decode payload with
    | .ok text => .text (String.ofList text)
    | .error _ => .failed
  else .binary payload

def controlEvent (opcode : Nat) (payload : List UInt8) : SocketEvent :=
  if opcode = 9 then .ping payload
  else if opcode = 10 then .pong payload
  else if payload.length = 1 then .failed
  else
    match Utf8.decode (payload.drop 2) with
    | .ok _ => .close
    | .error _ => .failed

/-- Takes a message as far as it has come, and gives it if it is whole. -/
def takePart (reader : FrameReader) (final : Bool) (opcode : Nat) (payload : List UInt8) :
    FrameReader × Option SocketEvent :=
  if isBroken opcode payload then (reader, some .failed)
  else if final then ({ reader with message := none }, some (eventOf opcode payload))
  else ({ reader with message := some (opcode, payload) }, none)

def takeFrame (reader : FrameReader) (frame : SocketFrame) : FrameReader × Option SocketEvent :=
  if SocketFrame.isControl frame.opcode then
    (reader, some (controlEvent frame.opcode frame.payload))
  else
    match reader.message, frame.opcode with
    | none, 0 => (reader, some .failed)
    | none, opcode => reader.takePart frame.final opcode frame.payload
    | some (opcode, begun), 0 => reader.takePart frame.final opcode (begun ++ frame.payload)
    | some _, _ => (reader, some .failed)

def isLast : SocketEvent → Bool
  | .close | .failed => true
  | _ => false

/-- Takes all complete frames of what has arrived; each one takes a unit of fuel. -/
def takeAll : Nat → FrameReader → FrameReader × List SocketEvent
  | 0, reader => (reader, [])
  | fuel + 1, reader =>
    if reader.isOver then (reader, [])
    else
      match SocketFrame.scan reader.held with
      | .incomplete => (reader, [])
      | .malformed => ({ reader with held := [], isOver := true }, [.failed])
      | .frame frame rest =>
        let (reader, event?) := { reader with held := rest }.takeFrame frame
        let reader := { reader with isOver := event?.any isLast }
        let (reader, later) := takeAll fuel reader
        (reader, event?.toList ++ later)

/-- Takes bytes that have arrived. A frame has at least six bytes. -/
def receive (reader : FrameReader) (bytes : List UInt8) : FrameReader × List SocketEvent :=
  let held := reader.held ++ bytes
  takeAll (held.length + 1) { reader with held }

end FrameReader

end ChatHub
