import ChatHub.CommandLine.Command
import ChatHub.Load.Generator
import ChatHub.LogFilter
import ChatHub.Net.Network
/-!
What the program does with its arguments, up to a hub that listens: what is printed, what is
logged, and how it ends.
-/

set_option autoImplicit false

namespace ChatHub

/-- How a program ends. A hub goes on until it is interrupted. -/
inductive Ending where
  | running
  | exited (code : Nat)
  deriving DecidableEq, Repr

/-- What a program has done. Log lines lack their times. -/
structure Outcome where
  ending : Ending
  output : String := ""
  errors : String := ""
  log : List String := []
  deriving DecidableEq, Repr

namespace Program

def listenerName : Listener → String
  | .webSocket => "websocket listener"
  | .tcp => "tcp listener"

/-- The name under which a listener logs what it does itself. -/
def listenerSource : Listener → String
  | .webSocket => CommandLine.programName ++ "::transport::ws"
  | .tcp => CommandLine.programName ++ "::transport::tcp"

def boundLine (listener : Listener) (address : SocketAddress) : LogLine :=
  let message :=
    match listener with
    | .webSocket => "websocket hub listening on " ++ address.text
    | .tcp => "tcp hub listening on " ++ address.text
  { source := CommandLine.programName, message }

def closingLine (listener : Listener) : LogLine :=
  let message :=
    match listener with
    | .webSocket => "websocket listener shut down"
    | .tcp => "tcp listener shutting down"
  { source := listenerSource listener, message }

/-- The lines of a WebSocket listener that stops while it serves some connections, on a signal or
because the program ends. Details are logged under no name. -/
def webSocketClosing (signalled : Bool) (connections : Nat) : List LogLine :=
  let detail (message : String) : LogLine := { source := "", message, level := .trace }
  (if signalled then
      [detail "received graceful shutdown signal. Telling tasks to shutdown"]
    else [])
    ++ [detail "signal received, not accepting new connections",
      detail ("waiting for " ++ toString connections ++ " task(s) to finish"),
      closingLine .webSocket]

def closingLines (connections : Nat) : List LogLine :=
  closingLine .tcp :: webSocketClosing true connections

def bindError (listener : Listener) (address : SocketAddress) (fault : BindFault) : String :=
  "Error: failed to bind " ++ listenerName listener ++ " on " ++ address.text
    ++ "\n\nCaused by:\n    " ++ fault.message ++ "\n"

def logged (filter : LogFilter) (lines : List LogLine) : List String :=
  (lines.filter filter.admits).map LogLine.text

/-- Runs a hub. `bind` gives the address that a listener got, and the WebSocket listener is bound
first. -/
def runHub (arguments : CommandLine.HubArguments) (filter : LogFilter) (interrupted : Bool)
    (bind : Listener → SocketAddress → Except BindFault SocketAddress) : Outcome :=
  match bind .webSocket arguments.webSocketListen with
  | .error fault =>
    { ending := .exited 1, errors := bindError .webSocket arguments.webSocketListen fault }
  | .ok webSocketAddress =>
    let webSocketLine := boundLine .webSocket webSocketAddress
    match bind .tcp arguments.listen with
    | .error fault =>
      { ending := .exited 1
        errors := bindError .tcp arguments.listen fault
        log := logged filter (webSocketLine :: webSocketClosing false 0) }
    | .ok tcpAddress =>
      let bound := [webSocketLine, boundLine .tcp tcpAddress]
      if interrupted then { ending := .exited 0, log := logged filter (bound ++ closingLines 0) }
      else { ending := .running, log := logged filter bound }

def progress (arguments : CommandLine.BenchArguments) (stage : Stage) : List LogLine :=
  let source := CommandLine.programName ++ "::bench"
  let line (message : String) (fields : List (String × String)) : LogLine :=
    { source, message, fields }
  let duration := ("duration_secs", toString arguments.duration)
  let concurrency := ("concurrency", toString arguments.concurrency)
  let spawned :=
    { source := CommandLine.programName
      message := "starting benchmark"
      fields :=
        [("host", arguments.host), ("port", toString arguments.port), concurrency, duration] }
      :: line "virtual users spawned" [concurrency]
      :: (if arguments.warmup = 0 then []
        else
          [line "warming up before start" [("warmup", toString arguments.warmup ++ "s")]])
  let started := spawned ++ [line "start" [duration]]
  let stopped := started ++ [line "time's up, stopping virtual users" []]
  let collected (stragglers : Nat) : List LogLine :=
    stopped ++
      [if stragglers = 0 then line "all virtual users finished cleanly" []
        else
          { source
            message := "benchmark did not complete cleanly"
            fields := [("stragglers", toString stragglers)]
            level := .warn }]
  match stage with
  | .warming _ => spawned
  | .measuring _ => started
  | .closing _ | .overdue => stopped
  | .summarizing stragglers | .flushing stragglers | .summarized stragglers _
  | .timeoutsRead stragglers .. => collected stragglers
  | .finished report => collected report.stragglers

/-- What a load test logs. A quiet one says nothing but errors. -/
def loadTestFilter (arguments : CommandLine.BenchArguments) (setting : Option String) :
    LogFilter :=
  if arguments.quiet then .ofLevel .error else .ofSetting setting

def reportText (arguments : CommandLine.BenchArguments) (report : Report) : String :=
  (if arguments.json then report.json else report.text) ++ "\n"

/-- Prints why the arguments are no command. What was asked for is output. -/
def refuse (refusal : CommandLine.Refusal) : Outcome :=
  let ending := Ending.exited refusal.exitCode
  if refusal.wanted then { ending, output := refusal.printed }
  else { ending, errors := refusal.printed }

/-- Runs the program on a host with some network, absent if it is to run a load test. -/
def run? (arguments : List String) (filter : LogFilter) (interrupted : Bool)
    (network : Network) : Option Outcome :=
  match CommandLine.parse arguments with
  | .error refusal => some (refuse refusal)
  | .ok (.hub arguments) =>
    some (runHub arguments filter interrupted fun listener address =>
      match listener with
      | .webSocket => network.bind [] address
      | .tcp => network.bind [arguments.webSocketListen] address)
  | .ok (.bench _) => none

end Program

end ChatHub
