import ChatHub.CommandLine.Form
import ChatHub.Load.Settings
import ChatHub.Net.Address
/-!
The commands of the program and the arguments that they take.
-/

set_option autoImplicit false

namespace ChatHub.CommandLine

structure HubArguments where
  listen : SocketAddress
  webSocketListen : SocketAddress
  deriving DecidableEq, Repr

/-- A load test: the hub to connect to, its size, and its times. `pacing` is in milliseconds, all
other times are in seconds. -/
structure BenchArguments where
  host : String
  port : Nat
  concurrency : Nat
  duration : Nat
  quiet : Bool
  json : Bool
  warmup : Nat
  waitBound : Nat
  pacing : Nat
  grace : Nat
  deriving DecidableEq, Repr

inductive Command where
  | hub (arguments : HubArguments)
  | bench (arguments : BenchArguments)
  deriving DecidableEq, Repr

def BenchArguments.config (arguments : BenchArguments) : BenchConfig :=
  { probe := { waitBound := 1000 * arguments.waitBound, pacing := arguments.pacing }
    warmup := 1000 * arguments.warmup
    grace := 1000 * arguments.grace }

/-! ### Hub -/

structure HubDraft where
  listen : Option SocketAddress := none
  webSocketListen : Option SocketAddress := none
  deriving DecidableEq, Repr

def address (text : String) : Except ValueFault SocketAddress :=
  match SocketAddress.ofString? text with
  | some address => .ok address
  | none => .error .address

def localhost (port : UInt16) : SocketAddress :=
  .v4 ⟨127, 0, 0, 1⟩ port

def hubForm : Form HubDraft HubArguments where
  page := .hub
  blank := {}
  options :=
    [("listen",
        { label := "--listen <LISTEN>"
          filled := fun draft => draft.listen.isSome
          fill := fun text draft => do
            let value ← address text
            .ok { draft with listen := some value } }),
      ("ws-listen",
        { label := "--ws-listen <WS_LISTEN>"
          filled := fun draft => draft.webSocketListen.isSome
          fill := fun text draft => do
            let value ← address text
            .ok { draft with webSocketListen := some value } })]
  switches := []
  positionals := []
  finish := fun draft =>
    some
      { listen := draft.listen.getD (localhost 9000)
        webSocketListen := draft.webSocketListen.getD (localhost 8080) }

/-! ### Load test -/

structure BenchDraft where
  host : Option String := none
  port : Option Nat := none
  concurrency : Option Nat := none
  duration : Option Nat := none
  quiet : Bool := false
  json : Bool := false
  warmup : Option Nat := none
  waitBound : Option Nat := none
  pacing : Option Nat := none
  grace : Option Nat := none
  deriving DecidableEq, Repr

def number (read : String → Except NumberFault Nat) (text : String) : Except ValueFault Nat :=
  (read text).mapError .number

def benchForm : Form BenchDraft BenchArguments where
  page := .bench
  blank := {}
  options :=
    [("warmup",
        { label := "--warmup <WARMUP>"
          filled := fun draft => draft.warmup.isSome
          fill := fun text draft => do
            let value ← number Number.natural64 text
            .ok { draft with warmup := some value } }),
      ("wait-bound",
        { label := "--wait-bound <WAIT_BOUND>"
          filled := fun draft => draft.waitBound.isSome
          fill := fun text draft => do
            let value ← number Number.natural64 text
            .ok { draft with waitBound := some value } }),
      ("pacing-ms",
        { label := "--pacing-ms <PACING_MS>"
          filled := fun draft => draft.pacing.isSome
          fill := fun text draft => do
            let value ← number Number.natural64 text
            .ok { draft with pacing := some value } }),
      ("grace",
        { label := "--grace <GRACE>"
          filled := fun draft => draft.grace.isSome
          fill := fun text draft => do
            let value ← number Number.natural64 text
            .ok { draft with grace := some value } })]
  switches :=
    [("quiet",
        { label := "--quiet"
          isOn := BenchDraft.quiet
          turnOn := fun draft => { draft with quiet := true } }),
      ("json",
        { label := "--json"
          isOn := BenchDraft.json
          turnOn := fun draft => { draft with json := true } })]
  positionals :=
    [{ label := "<HOST>"
       filled := fun draft => draft.host.isSome
       fill := fun text draft => .ok { draft with host := some text } },
      { label := "<PORT>"
        filled := fun draft => draft.port.isSome
        fill := fun text draft => do
          let value ← number Number.port text
          .ok { draft with port := some value } },
      { label := "<CONCURRENCY>"
        filled := fun draft => draft.concurrency.isSome
        fill := fun text draft => do
          let value ← number Number.positive64 text
          .ok { draft with concurrency := some value } },
      { label := "<DURATION>"
        filled := fun draft => draft.duration.isSome
        fill := fun text draft => do
          let value ← number Number.positive64 text
          .ok { draft with duration := some value } }]
  finish := fun draft => do
    let host ← draft.host
    let port ← draft.port
    let concurrency ← draft.concurrency
    let duration ← draft.duration
    some
      { host, port, concurrency, duration
        quiet := draft.quiet
        json := draft.json
        warmup := draft.warmup.getD 3
        waitBound := draft.waitBound.getD 10
        pacing := draft.pacing.getD 10
        grace := draft.grace.getD 30 }

/-! ### Program -/

def subcommandPage? : String → Option HelpPage
  | "hub" => some .hub
  | "bench" => some .bench
  | "help" => some .help
  | _ => none

def refuse (mistake : Mistake) (tip : Option Tip) : Refusal :=
  .mistake mistake tip .program HelpPage.program.usage

/-- The help that was asked for by name. Subcommands have none of their own. -/
def askHelp : List String → Refusal
  | [] => .help .program
  | name :: rest =>
    match subcommandPage? name, rest with
    | none, _ => refuse (.unrecognizedSubcommand name) none
    | some page, [] => .help page
    | some page, other :: _ => .mistake (.unrecognizedSubcommand other) none page page.usage

/-- The subcommands, each with the names of its arguments that begin with two dashes. -/
def subcommands : List (String × List String) :=
  [("hub", hubForm.names), ("bench", benchForm.names), ("help", [])]

def refuseWord (argument : String) : Refusal :=
  let similar := Similarity.similar argument (subcommands.map Prod.fst)
  refuse (.unrecognizedSubcommand argument)
    (if similar.isEmpty then none else some (.similarSubcommands similar))

/-- How the program is called with one of its own arguments. -/
def usageWith (label : String) : String :=
  " ".intercalate [programName, label, "<COMMAND>"]

/-- The first of the subcommands named behind an unknown argument that takes a similar one. -/
def subcommandTip? (name : String) (rest : List String) : Option Tip :=
  rest.findSome? fun word => do
    let names ← subcommands.lookup word
    let meant ← (Similarity.similar name names).getLast?
    some (.inSubcommand word ("--" ++ meant))

def refuseLong (name : String) (rest : List String) : Refusal :=
  let mistake := Mistake.unexpectedArgument ("--" ++ name)
  match (Similarity.similar name ["help", "version"]).getLast? with
  | some meant =>
    .mistake mistake (some (.similarArgument ("--" ++ meant))) .program
      (usageWith ("--" ++ meant))
  | none => refuse mistake (subcommandTip? name rest)

def refuseValue (value label : String) : Refusal :=
  .mistake (.unexpectedValue value label) none .program (usageWith label)

def refuseArgument (argument : String) (rest : List String) : Refusal :=
  match Token.ofString argument with
  | .escape =>
    match rest with
    | [] => .noArguments
    | name :: _ =>
      if (subcommandPage? name).isSome then
        refuse (.unexpectedArgument name) (some (.withoutEscape name))
      else refuseWord name
  | .long "help" none => .help .program
  | .long "help" (some value) => refuseValue value "--help"
  | .long "version" none => .version
  | .long "version" (some value) => refuseValue value "--version"
  | .long name _ => refuseLong name rest
  | .short 'h' => .help .program
  | .short 'V' => .version
  | .short first => refuse (.unexpectedArgument (String.ofList ['-', first])) none
  | .word => refuseWord argument

def parse : List String → Except Refusal Command
  | [] => .error .noArguments
  | "hub" :: rest => (hubForm.parse rest).map .hub
  | "bench" :: rest => (benchForm.parse rest).map .bench
  | "help" :: rest => .error (askHelp rest)
  | argument :: rest => .error (refuseArgument argument rest)

end ChatHub.CommandLine
