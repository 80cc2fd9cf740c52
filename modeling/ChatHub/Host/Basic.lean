import ChatHub.LogFilter
import ChatHub.Net.Address
import ChatHub.Net.Network
import ChatHub.Program
import ChatHub.Timestamp
import Std.Async.TCP
/-!
What the program needs of its host: the time of day, output, and addresses as sockets take them.
-/

set_option autoImplicit false

namespace ChatHub.Host

def now : IO Timestamp := do
  let moment ← Std.Time.Timestamp.now
  let nanoseconds := moment.toNanosecondsSinceUnixEpoch.val.toNat
  return { seconds := nanoseconds / 1000000000, nanoseconds := nanoseconds % 1000000000 }

/-- Writes log lines with the time, to the microsecond, in front of each. The levels end in one
column. -/
def log (stream : IO.FS.Stream) (lines : List String) : IO Unit := do
  let moment ← now
  let time := { moment with nanoseconds := moment.nanoseconds / 1000 * 1000 }.text
  for line in lines do
    let level := line.toList.takeWhile (· != ' ')
    let indent := String.ofList (List.replicate (6 - level.length) ' ')
    stream.putStr (time ++ indent ++ line ++ "\n")
  stream.flush

def report (outcome : Outcome) : IO Unit := do
  let output ← IO.getStdout
  output.putStr outcome.output
  log output outcome.log
  (← IO.getStderr).putStr outcome.errors

/-- An address as sockets take it. They take no scopes. -/
def nativeAddress : SocketAddress → Std.Net.SocketAddress
  | .v4 ⟨first, second, third, fourth⟩ port =>
    .v4 { addr := Std.Net.IPv4Addr.ofParts first second third fourth, port }
  | .v6 address _ port =>
    .v6 { addr := ⟨⟨⟨address.groups⟩, address.eight⟩⟩, port }

def nativePort : Std.Net.SocketAddress → UInt16
  | .v4 address => address.port
  | .v6 address => address.port

def bindFault : IO.Error → BindFault
  | .resourceBusy .. => .inUse
  | .permissionDenied .. => .denied
  | .invalidArgument .. => .invalid
  | _ => .notAvailable

end ChatHub.Host
