import ChatHub.Text.Utf8
/-!
Text without what only a terminal understands: control characters that are no blanks, and escape
sequences. A sequence that is cut off takes the rest of the text with it.
-/

set_option autoImplicit false

namespace ChatHub.Plain

/-- Where a terminal stands in a text. -/
inductive Mode where
  | ground
  | escape
  /-- Behind an escape and a blank or a mark. -/
  | intermediate
  /-- In a control sequence, which a letter ends. -/
  | control
  /-- In a command to the system, which a bell ends. -/
  | command
  /-- At the beginning of a string for a device. -/
  | device
  | deviceNumber
  | deviceIntermediate
  /-- In a string, which its terminator ends. -/
  | string
  deriving DecidableEq, Repr

/-- A control character that is a blank. -/
def isBlank (character : Char) : Bool :=
  character = '\t' || character = '\n' || character = '\x0c' || character = '\r'

/-- A control character that ends whatever stands before it. -/
def cancels (character : Char) : Bool :=
  character = '\x18' || character = '\x1a'

def isPrintable (character : Char) : Bool :=
  ' ' ≤ character && character < '\x7f'

def isText (character : Char) : Bool :=
  isBlank character || isPrintable character || '\x7f' < character

/-- Whether a character is, or has in its encoding, the byte that terminates a string. -/
def terminates (character : Char) : Bool :=
  (Utf8.encodeChar character).contains 0x9c

def Mode.afterEscape (character : Char) : Mode :=
  if character = '[' then .control
  else if character = ']' then .command
  else if character = 'P' then .device
  else if character = 'X' || character = '^' || character = '_' then .string
  else if character < '0' then .intermediate
  else .ground

/-- The mode behind a printable character in front of the string for a device. -/
def Mode.inDevice (mode : Mode) (character : Char) : Mode :=
  if character < '0' then .deviceIntermediate
  else if '@' ≤ character || mode = .deviceIntermediate || character = ':' then .string
  else if '<' ≤ character && mode = .deviceNumber then .string
  else .deviceNumber

/-- The mode behind a character that is not kept. -/
def Mode.next (mode : Mode) (character : Char) : Mode :=
  if character = '\x1b' then .escape
  else if cancels character then .ground
  else
    let printable := isPrintable character
    match mode with
    | .ground => .ground
    | .escape => if printable then Mode.afterEscape character else .escape
    | .intermediate => if printable && '0' ≤ character then .ground else .intermediate
    | .control => if printable && '@' ≤ character then .ground else .control
    | .command => if character = '\x07' then .ground else .command
    | .device | .deviceNumber | .deviceIntermediate =>
      if printable then mode.inDevice character else mode
    | .string => if terminates character then .ground else .string

/-- Whether a character is kept. In sequences of a few characters only blanks are. -/
def Mode.keeps (mode : Mode) (character : Char) : Bool :=
  match mode with
  | .ground => isText character
  | .escape | .intermediate | .control => isBlank character
  | .command | .device | .deviceNumber | .deviceIntermediate | .string => false

inductive Interruption where
  /-- The sequence is over. -/
  | final
  /-- The sequence goes on at the next control character, unless the text in between is more than
  ASCII. -/
  | passing
  deriving DecidableEq, Repr

/-- The mode behind a character that is kept. -/
def Interruption.behind (interruption : Interruption) (mode : Mode) (character : Char) : Mode :=
  match interruption with
  | .final => .ground
  | .passing => if '\x7f' < character then .ground else mode

/-- What is kept of a text. `interrupted` says whether the character before was kept. -/
def strip (interruption : Interruption) (mode : Mode) (interrupted : Bool) :
    List Char → List Char
  | [] => []
  | character :: rest =>
    if mode.keeps character || interrupted && isText character then
      character :: strip interruption (interruption.behind mode character) true rest
    else strip interruption (mode.next character) false rest

def text (interruption : Interruption) (styled : String) : String :=
  String.ofList (strip interruption .ground false styled.toList)

end ChatHub.Plain
