/-!
Cutting a byte stream into lines. A piece ends behind a line feed, at the limit, or where the
stream ends. `pieces` cuts a whole stream; `LineBuffer` does the same while bytes arrive.
-/

set_option autoImplicit false

namespace ChatHub.Wire

/-- The longest line accepted from a peer, its line feed included. -/
def maxLineBytes : Nat := 65536

def lineFeed : UInt8 := 10

/-- Takes bytes up to and including a line feed, but no more than `room`; `taken` holds those
before, latest first. -/
def takeLineFrom (taken : List UInt8) : Nat → List UInt8 → List UInt8 × List UInt8
  | 0, bytes => (taken.reverse, bytes)
  | _, [] => (taken.reverse, [])
  | room + 1, byte :: rest =>
    if byte = lineFeed then ((byte :: taken).reverse, rest)
    else takeLineFrom (byte :: taken) room rest

def takeLine (bytes : List UInt8) : List UInt8 × List UInt8 :=
  takeLineFrom [] maxLineBytes bytes

theorem takeLineFrom_length_le (taken : List UInt8) (room : Nat) (bytes : List UInt8) :
    (takeLineFrom taken room bytes).2.length ≤ bytes.length := by
  induction bytes generalizing taken room with
  | nil => cases room <;> simp [takeLineFrom]
  | cons byte rest ih =>
    cases room with
    | zero => simp [takeLineFrom]
    | succ room =>
      simp only [takeLineFrom]
      split
      · simp
      · have shorter := ih (byte :: taken) room
        simp only [List.length_cons]
        omega

theorem takeLine_length_lt (byte : UInt8) (rest : List UInt8) :
    (takeLine (byte :: rest)).2.length < (byte :: rest).length := by
  unfold takeLine maxLineBytes takeLineFrom
  split
  · simp
  · have shorter := takeLineFrom_length_le [byte] 65535 rest
    simp only [List.length_cons]
    omega

/-- The pieces of a whole stream in order. -/
def pieces (bytes : List UInt8) : List (List UInt8) :=
  match bytes with
  | [] => []
  | byte :: rest => (takeLine (byte :: rest)).1 :: pieces (takeLine (byte :: rest)).2
termination_by bytes.length
decreasing_by exact takeLine_length_lt byte rest

/-- The bytes of a piece that has not ended yet, latest first, and their number. -/
structure LineBuffer where
  held : List UInt8 := []
  count : Nat := 0
  deriving DecidableEq, Repr, Inhabited

def LineBuffer.push (buffer : LineBuffer) (byte : UInt8) : LineBuffer × Option (List UInt8) :=
  if byte = lineFeed || buffer.count + 1 = maxLineBytes then
    ({}, some (byte :: buffer.held).reverse)
  else (⟨byte :: buffer.held, buffer.count + 1⟩, none)

def LineBuffer.feed (buffer : LineBuffer) : List UInt8 → LineBuffer × List (List UInt8)
  | [] => (buffer, [])
  | byte :: rest =>
    let (pushed, piece?) := buffer.push byte
    let (fed, later) := pushed.feed rest
    (fed, piece?.toList ++ later)

def LineBuffer.finish (buffer : LineBuffer) : Option (List UInt8) :=
  if buffer.held.isEmpty then none else some buffer.held.reverse

end ChatHub.Wire
