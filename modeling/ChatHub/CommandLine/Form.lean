import ChatHub.CommandLine.Refusal
import ChatHub.Text.Similarity
/-!
Reading the arguments of one command. A form lists what the command takes; arguments are handled
from left to right, each value is checked once the next argument has been looked at, and the first
mistake wins. Behind `--` everything is positional.
-/

set_option autoImplicit false

namespace ChatHub.CommandLine

/-- The shape of one argument. A lone dash is a word. -/
inductive Token where
  | escape
  | long (name : String) (value : Option String)
  | short (first : Char)
  | word
  deriving DecidableEq, Repr

def splitValue (text : List Char) : String × Option String :=
  let name := text.takeWhile (· != '=')
  (String.ofList name,
    match text.drop name.length with
    | [] => none
    | _ :: value => some (String.ofList value))

def Token.ofString (argument : String) : Token :=
  match argument.toList with
  | ['-', '-'] => .escape
  | '-' :: '-' :: rest =>
    let (name, value) := splitValue rest
    .long name value
  | '-' :: first :: _ => .short first
  | _ => .word

structure Slot (σ : Type) where
  label : String
  filled : σ → Bool
  fill : String → σ → Except ValueFault σ

structure Switch (σ : Type) where
  label : String
  isOn : σ → Bool
  turnOn : σ → σ

/-- What a command takes. Options and switches are found by their names without dashes. `finish`
makes the command of a draft once every positional slot is filled. -/
structure Form (σ α : Type) where
  page : HelpPage
  blank : σ
  options : List (String × Slot σ)
  switches : List (String × Switch σ)
  positionals : List (Slot σ)
  finish : σ → Option α

/-- A slot that was named last and is not filled yet, with its value once that is there. -/
structure Open (σ : Type) where
  slot : Slot σ
  value : Option String

/-- How far the arguments have been read. `used` holds the labels of options and switches that
are in the draft. -/
structure Progress (σ : Type) where
  draft : σ
  used : List String := []
  pending : Option (Open σ) := none
  positionals : List (Slot σ)

/-- The labels of the options and switches given so far, what was named last included. An option
that was named again does not count. -/
def Progress.given {σ : Type} (progress : Progress σ) : List String :=
  match progress.pending with
  | some ⟨slot, some _⟩ =>
    if slot.filled progress.draft then progress.used.erase slot.label
    else if slot.label.startsWith "-" then progress.used ++ [slot.label]
    else progress.used
  | _ => progress.used

namespace Form

variable {σ α : Type}

def usageWith (form : Form σ α) (used : List String) : String :=
  " ".intercalate (form.page.command :: used ++ form.positionals.map Slot.label)

def alternatives (form : Form σ α) : String :=
  let name (slot : Slot σ) : String :=
    String.ofList (slot.label.toList.filter fun character => character != '<' && character != '>')
  "<" ++ "|".intercalate (form.positionals.map name ++ form.switches.map (·.2.label)
    ++ form.options.map (·.2.label)) ++ ">"

def refuse {β : Type} (form : Form σ α) (mistake : Mistake) : Except Refusal β :=
  .error (.mistake mistake none form.page form.page.usage)

def names (form : Form σ α) : List String :=
  form.switches.map Prod.fst ++ form.options.map Prod.fst ++ ["help"]

def labelOf (form : Form σ α) (name : String) : String :=
  ((form.options.lookup name).map Slot.label).getD ("--" ++ name)

def refuseLong {β : Type} (form : Form σ α) (name : String) (progress : Progress σ) :
    Except Refusal β :=
  let meant := (Similarity.similar name form.names).getLast?
  let tip :=
    match meant with
    | some name => some (Tip.similarArgument ("--" ++ name))
    | none => if form.positionals.isEmpty then none else some (.asValue ("--" ++ name))
  let used := (progress.given ++ (meant.map form.labelOf).toList).eraseDups
  let untouched := used.isEmpty && progress.positionals.length = form.positionals.length
  .error (.mistake (.unexpectedArgument ("--" ++ name)) tip form.page
    (if untouched then form.page.usage else form.usageWith used))

def refuseShort {β : Type} (form : Form σ α) (first : Char) : Except Refusal β :=
  let argument := String.ofList ['-', first]
  .error (.mistake (.unexpectedArgument argument)
    (if form.positionals.isEmpty then none else some (.asValue argument)) form.page
    form.page.usage)

/-- A value for an argument that takes none. Once the draft holds something, usage does not tell
the command's own arguments apart, and help is none of them. -/
def refuseValue {β : Type} (form : Form σ α) (value label : String) (progress : Progress σ) :
    Except Refusal β :=
  let begun :=
    !progress.used.isEmpty || form.positionals.any fun slot => slot.filled progress.draft
  .error (.mistake (.unexpectedValue value label) none form.page
    (if begun then
      " ".intercalate (form.page.command :: (if label = "--help" then [label] else [])
        ++ [form.alternatives])
    else form.usageWith [label]))

def settle (form : Form σ α) (progress : Progress σ) : Except Refusal (Progress σ) :=
  match progress.pending with
  | none => .ok progress
  | some ⟨slot, none⟩ => form.refuse (.valueRequired slot.label)
  | some ⟨slot, some value⟩ =>
    if slot.filled progress.draft then form.refuse (.repeated slot.label)
    else
      match slot.fill value progress.draft with
      | .error fault => form.refuse (.invalidValue value slot.label fault)
      | .ok draft =>
        .ok { progress with
          draft
          used := if slot.label.startsWith "-" then progress.used ++ [slot.label] else progress.used
          pending := none }

def name (form : Form σ α) (slot : Slot σ) (value : Option String) (progress : Progress σ) :
    Except Refusal (Progress σ) := do
  let progress ← form.settle progress
  .ok { progress with pending := some ⟨slot, value⟩ }

def turnOn (form : Form σ α) (switch : Switch σ) (progress : Progress σ) :
    Except Refusal (Progress σ) := do
  let progress ← form.settle progress
  if switch.isOn progress.draft then form.refuse (.repeated switch.label)
  else
    .ok { progress with
      draft := switch.turnOn progress.draft
      used := progress.used ++ [switch.label] }

def askHelp (form : Form σ α) (progress : Progress σ) : Except Refusal (Progress σ) := do
  let _ ← form.settle progress
  .error (.help form.page)

/-- Takes an argument that is not positional by its looks. A value that is attached to an option
is checked at once. -/
def takeLong (form : Form σ α) (name : String) (value : Option String)
    (progress : Progress σ) : Except Refusal (Progress σ) :=
  match form.options.lookup name with
  | some slot => do
    let progress ← form.name slot value progress
    if value.isSome then form.settle progress else .ok progress
  | none =>
    match form.switches.lookup name, value with
    | some switch, none => form.turnOn switch progress
    | some switch, some value => form.refuseValue value switch.label progress
    | none, value =>
      if name = "help" then
        match value with
        | none => form.askHelp progress
        | some value => form.refuseValue value "--help" progress
      else form.refuseLong name progress

def takePositional (form : Form σ α) (argument : String) (progress : Progress σ) :
    Except Refusal (Progress σ) :=
  match progress.positionals with
  | [] => form.refuse (.unexpectedArgument argument)
  | slot :: rest => do
    let progress ← form.name slot (some argument) progress
    .ok { progress with positionals := rest }

/-- Takes one argument in front of any `--`. A word is the value of an option that still lacks
one. -/
def take (form : Form σ α) (argument : String) (progress : Progress σ) :
    Except Refusal (Progress σ) :=
  match Token.ofString argument with
  | .escape => .ok progress
  | .long name value => form.takeLong name value progress
  | .short first =>
    if first = 'h' then form.askHelp progress
    else form.refuseShort first
  | .word =>
    match progress.pending with
    | some ⟨slot, none⟩ => .ok { progress with pending := some ⟨slot, some argument⟩ }
    | _ => form.takePositional argument progress

/-- Takes all arguments; `trailing` says whether `--` has been seen. -/
def takeAll (form : Form σ α) : Bool → List String → Progress σ → Except Refusal (Progress σ)
  | _, [], progress => form.settle progress
  | true, argument :: rest, progress => do
    form.takeAll true rest (← form.takePositional argument progress)
  | false, argument :: rest, progress => do
    form.takeAll (argument == "--") rest (← form.take argument progress)

def parse (form : Form σ α) (arguments : List String) : Except Refusal α := do
  let progress ← form.takeAll false arguments
    { draft := form.blank, positionals := form.positionals }
  match form.finish progress.draft with
  | some command => .ok command
  | none =>
    let missing := form.positionals.filter fun slot => !slot.filled progress.draft
    .error (.mistake (.missingArguments (missing.map Slot.label)) none form.page
      (form.usageWith progress.used))

end Form

end ChatHub.CommandLine
