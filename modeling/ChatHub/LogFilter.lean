import ChatHub.Text.Alphanumeric
import ChatHub.Text.Blank
/-!
Which log lines are written. A filter is a list of directives; of those that apply to a line, the
most specific one decides up to which level lines are written.
-/

set_option autoImplicit false

namespace ChatHub

inductive LogLevel where
  | off
  | error
  | warn
  | info
  | debug
  | trace
  deriving DecidableEq, Repr

namespace LogLevel

def rank : LogLevel → Nat
  | .off => 0
  | .error => 1
  | .warn => 2
  | .info => 3
  | .debug => 4
  | .trace => 5

def all : List LogLevel :=
  [.off, .error, .warn, .info, .debug, .trace]

def name : LogLevel → String
  | .off => "OFF"
  | .error => "ERROR"
  | .warn => "WARN"
  | .info => "INFO"
  | .debug => "DEBUG"
  | .trace => "TRACE"

def number? (text : List Char) : Option Nat :=
  let digits :=
    match text with
    | '+' :: digits => digits
    | digits => digits
  if !digits.isEmpty && digits.all Char.isDigit then
    some (digits.foldl (fun value digit => 10 * value + (digit.toNat - '0'.toNat)) 0)
  else none

/-- A level by its rank, or by its name in any case. -/
def ofText? (text : List Char) : Option LogLevel :=
  match number? text with
  | some rank => all[rank]?
  | none => all.find? fun level => level.name.toList == text.map Char.toUpper

def admits (level line : LogLevel) : Bool :=
  line.rank ≤ level.rank

end LogLevel

/-- A line without its time: the part of the program that logs it, what it says, and values by
their names. -/
structure LogLine where
  source : String
  message : String
  fields : List (String × String) := []
  level : LogLevel := .info
  deriving DecidableEq, Repr

def LogLine.text (line : LogLine) : String :=
  " ".intercalate
    (line.level.name :: line.message :: line.fields.map fun field => field.1 ++ "=" ++ field.2)

/-- The names of a line's values. What it says is one of them. -/
def LogLine.fieldNames (line : LogLine) : List String :=
  "message" :: line.fields.map Prod.fst

/-- The level for the lines of some sources. -/
structure LogDirective where
  level : LogLevel
  /-- How the names of the sources begin. -/
  beginning : List Char := []
  /-- The name of a value that the lines have. -/
  field : Option (List Char) := none
  /-- Whether the lines are to lie within some activity, or their values to be of some kind. No
  line of this program is bound to that. -/
  narrowed : Bool := false
  deriving DecidableEq, Repr

namespace LogDirective

def applies (directive : LogDirective) (line : LogLine) : Bool :=
  !directive.narrowed && directive.beginning.isPrefixOf line.source.toList
    && directive.field.all fun field => line.fieldNames.contains (String.ofList field)

/-- Whether a directive is at least as specific as another one about the same line: it has the
longer beginning, or else it alone names a value, or the value whose name comes later. -/
def covers (directive other : LogDirective) : Bool :=
  if directive.beginning.length = other.beginning.length then
    match directive.field, other.field with
    | some field, some otherField => !(field < otherField)
    | none, some _ => false
    | _, none => true
  else other.beginning.length < directive.beginning.length

/-! ### Reading

Pieces of a directive are found in its text without the blanks around it, and cut from the text as
it was given, at the same places. -/

def isInitial (character : Char) : Bool :=
  character = '-' || character = ':' || character = '_' || Text.isAlphanumeric character

def cut (text : List Char) (start length : Nat) : List Char :=
  (text.drop start).take length

/-- What a directive says about a value is its name, and what it is to be like behind an equals
sign. -/
def withField (directive : LogDirective) (field : List Char) : LogDirective :=
  if field.contains '=' then { directive with narrowed := true }
  else { directive with field := some field }

def withLevel? (directive : LogDirective) (text : List Char) (place : Nat) :
    List Char → Option LogDirective
  | [] => some directive
  | '=' :: _ =>
    match text.drop (place + 1) with
    | [] => some directive
    | level => (LogLevel.ofText? level).map fun level => { directive with level }
  | _ => none

/-- Reads a directive from an opening bracket on: the name of an activity, the name of a value in
braces, or both, and what stands behind the closing bracket. -/
def withScope? (directive : LogDirective) (text : List Char) (place : Nat)
    (behind : List Char) : Option LogDirective :=
  let activity := behind.takeWhile fun character => character != ']' && character != '\x7b'
  match behind.drop activity.length with
  | ']' :: rest =>
    { directive with narrowed := true }.withLevel? text (place + activity.length + 2) rest
  | '\x7b' :: behind =>
    let start := place + activity.length + 2
    let field := behind.takeWhile (· != '\x7d')
    match behind.drop field.length with
    | '\x7d' :: ']' :: rest =>
      if field.isEmpty then none
      else
        let directive := { directive with narrowed := !activity.isEmpty }
        (directive.withField (cut text start field.length)).withLevel? text
          (start + field.length + 2) rest
    | _ => none
  | _ => none

/-- Reads a directive. A lone word is a level, or else the beginning of sources that are logged in
full. -/
def ofText? (text : List Char) : Option LogDirective :=
  let body := Text.trimmed text
  let word := body.takeWhile fun character => character != '=' && character != '['
  match body.head? with
  | none => none
  | some first =>
    if first = '[' then withScope? { level := .trace } text 0 (body.drop 1)
    else if !isInitial first then none
    else
      let directive : LogDirective := { level := .trace, beginning := cut text 0 word.length }
      match body.drop word.length with
      | [] =>
        match LogLevel.ofText? text with
        | some level => some { level }
        | none => some { directive with beginning := text }
      | '[' :: behind => directive.withScope? text word.length behind
      | behind => directive.withLevel? text word.length behind

end LogDirective

structure LogFilter where
  directives : List LogDirective
  deriving DecidableEq, Repr

namespace LogFilter

def ofLevel (level : LogLevel) : LogFilter :=
  ⟨[{ level }]⟩

/-- Reads directives with commas between them. Without any, errors are logged. -/
def ofText? (text : String) : Option LogFilter := do
  let parts := (text.toList.splitOn ',').filter fun part => !part.isEmpty
  let directives ← parts.mapM LogDirective.ofText?
  some (if directives.isEmpty then ofLevel .error else ⟨directives⟩)

/-- The filter of a setting. Without one, or with one that cannot be read, it is `info`. -/
def ofSetting (setting : Option String) : LogFilter :=
  (setting.bind ofText?).getD (ofLevel .info)

/-- The directive that decides about a line: of those that are about it, the most specific one,
and of several such the last. -/
def directiveFor? (filter : LogFilter) (line : LogLine) : Option LogDirective :=
  (filter.directives.filter fun directive => directive.applies line).foldl
    (fun best? directive =>
      match best? with
      | none => some directive
      | some best => if directive.covers best then some directive else some best)
    none

def admits (filter : LogFilter) (line : LogLine) : Bool :=
  (filter.directiveFor? line).any fun directive => directive.level.admits line.level

end LogFilter

end ChatHub
