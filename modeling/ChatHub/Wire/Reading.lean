import ChatHub.Wire.Frame
import ChatHub.Wire.Line
/-!
Messages from a byte stream, one on each line. Each piece of the stream has its outcome by itself:
a message, a refusal, or nothing for an empty line. A refusal does not stop the stream.
-/

set_option autoImplicit false

namespace ChatHub.Wire

open Json

inductive ReadError where
  | notText (fault : Utf8.Fault)
  | tooLong
  | malformed (cause : Cause) (column : Nat)

def ReadError.message : ReadError → String
  | .notText fault => fault.message
  | .tooLong => "line exceeds " ++ toString maxLineBytes ++ " bytes"
  | .malformed cause column => cause.describe ++ " at line 1 column " ++ toString column

def isLineEnding (character : Char) : Bool :=
  character == '\n' || character == '\r'

def trimLine (line : List Char) : List Char :=
  (line.reverse.dropWhile isLineEnding).reverse

def isCut (piece : List UInt8) : Bool :=
  piece.length = maxLineBytes && piece.getLast? ≠ some lineFeed

/-- The outcome of one piece; an empty line has none. -/
def readPiece {α : Type} (format : Format α) (piece : List UInt8) : Option (Except ReadError α) :=
  match Utf8.decode piece with
  | .error fault => some (.error (.notText fault))
  | .ok text =>
    if isCut piece then some (.error .tooLong)
    else
      let line := trimLine text
      if line.isEmpty then none
      else
        match decodeLine format line with
        | .ok message => some (.ok message)
        | .error failure => some (.error (.malformed failure.cause (failure.column line)))

def readAll {α : Type} (format : Format α) (bytes : List UInt8) : List (Except ReadError α) :=
  (pieces bytes).filterMap (readPiece format)

/-- One call of a reader: the outcome of the first piece that has one, and the bytes behind it.
There is none at the end of the stream. -/
def readNext {α : Type} (format : Format α) (bytes : List UInt8) :
    Option (Except ReadError α) × List UInt8 :=
  match bytes with
  | [] => (none, [])
  | byte :: rest =>
    match readPiece format (takeLine (byte :: rest)).1 with
    | some outcome => (some outcome, (takeLine (byte :: rest)).2)
    | none => readNext format (takeLine (byte :: rest)).2
termination_by bytes.length
decreasing_by exact takeLine_length_lt byte rest

/-- Calls a reader so many times. -/
def readTimes {α : Type} (format : Format α) : Nat → List UInt8 → List (Option (Except ReadError α))
  | 0, _ => []
  | calls + 1, bytes =>
    (readNext format bytes).1 :: readTimes format calls (readNext format bytes).2

end ChatHub.Wire
