import ChatHub.Host.Basic
import ChatHub.Load.Remote
import ChatHub.Roster
import Std.Async.DNS
import Std.Async.TCP
import Std.Async.Timer
import Std.Sync.Mutex
/-!
A load test on real sockets and a real clock. What happens at a socket is taken at once, and time
is looked at every millisecond.
-/

set_option autoImplicit false

namespace ChatHub.Host

open Std.Async

/-- The test, the sockets of its users, how many log lines have been written, and the reading of
the host's stopwatch at the beginning. -/
structure Bench where
  remote : RemoteRun
  sockets : Roster Nat TCP.Socket.Client := {}
  logged : Nat := 0
  origin : Nat

namespace Bench

def reading (bench : Bench) : BaseIO Reading := do
  let elapsed := (← IO.monoNanosNow) - bench.origin
  return { time := elapsed / 1000000, stopwatch := elapsed }

/-- Writes a line into a user's socket without waiting until it is gone. -/
def write (bench : Bench) (line : Nat × List UInt8) (failed : IO Unit) : IO Unit := do
  match bench.sockets.get? line.1 with
  | none => return
  | some client =>
    let writing : Async Unit := do
      try client.send ⟨line.2.toArray⟩ catch _ => discard (IO.asTask failed)
    discard writing.toIO

/-- Gives up the sockets of users that have left. -/
def release (bench : Bench) : IO Bench := do
  let (left, kept) := bench.sockets.entries.partition fun entry => bench.remote.hasLeft entry.1
  for entry in left do
    discard entry.2.shutdown.toIO
  return { bench with sockets := ⟨kept⟩ }

/-- Changes the test and lets everything happen that follows, and says whether there is a
report. -/
partial def happen (shared : Std.Mutex Bench) (change : RemoteRun → RemoteRun) :
    IO (Option Report) :=
  shared.atomically do
    let bench ← get
    let reading ← bench.reading
    let (lines, remote) := ((change (bench.remote.moveTo reading)).advance reading).outgoing
    for line in lines do
      bench.write line (discard (happen shared (·.take line.1 .unwritable)))
    set (← { bench with remote }.release)
    return remote.report?

def take (shared : Std.Mutex Bench) (user : Nat) (event : RemoteEvent) : IO Unit :=
  discard (happen shared (·.take user event))

/-- Connects to the first address that answers. -/
def connectFirst (port : UInt16) : List Std.Net.IPAddr → Async (Option TCP.Socket.Client)
  | [] => return none
  | address :: rest => do
    let client ← TCP.Socket.Client.mk
    let target : Std.Net.SocketAddress :=
      match address with
      | .v4 addr => .v4 { addr, port }
      | .v6 addr => .v6 { addr, port }
    let connected ←
      try
        client.connect target
        client.noDelay
        pure true
      catch _ => pure false
    if connected then return some client else connectFirst port rest

partial def readSocket (shared : Std.Mutex Bench) (user : Nat) (client : TCP.Socket.Client) :
    Async Unit := do
  let bytes? ← try client.recv? 65536 catch _ => pure none
  match bytes? with
  | some bytes =>
    take shared user (.bytes bytes.toList)
    readSocket shared user client
  | none => take shared user .ended

def attend (shared : Std.Mutex Bench) (arguments : CommandLine.BenchArguments) (user : Nat) :
    Async Unit := do
  let port := arguments.port.toUInt16
  let client? ←
    try
      let addresses ← DNS.getAddrInfo arguments.host (toString arguments.port)
      connectFirst port addresses.toList
    catch _ => pure none
  match client? with
  | none => take shared user .refused
  | some client =>
    shared.atomically do
      modify fun bench => { bench with sockets := bench.sockets.put user client }
    take shared user .connected
    readSocket shared user client

def logProgress (shared : Std.Mutex Bench) (arguments : CommandLine.BenchArguments)
    (filter : LogFilter) : IO Unit :=
  shared.atomically do
    let bench ← get
    let lines := Program.progress arguments bench.remote.run.stage
    set { bench with logged := lines.length }
    log (← IO.getStderr) (Program.logged filter (lines.drop bench.logged))

/-- Looks at the time until there is a report. -/
partial def await (shared : Std.Mutex Bench) (arguments : CommandLine.BenchArguments)
    (filter : LogFilter) : IO Report := do
  let report? ← happen shared id
  logProgress shared arguments filter
  match report? with
  | some report => return report
  | none =>
    IO.sleep 1
    await shared arguments filter

end Bench

def loadTest (arguments : CommandLine.BenchArguments) (filter : LogFilter) : IO UInt32 := do
  match RemoteRun.start arguments.config arguments.duration arguments.concurrency with
  | .error refusal =>
    (← IO.getStderr).putStr ("Error: " ++ refusal.message ++ "\n")
    return 1
  | .ok remote =>
    let shared ← Std.Mutex.new { remote, origin := ← IO.monoNanosNow }
    for user in List.range arguments.concurrency do
      discard (Bench.attend shared arguments user).toIO
    let report ← Bench.await shared arguments filter
    (← IO.getStdout).putStr (Program.reportText arguments report)
    return 0

end ChatHub.Host
