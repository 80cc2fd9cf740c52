import ChatHub.Host.Hub
import ChatHub.Host.LoadTest
/-!
The command line of the program.
-/

set_option autoImplicit false

/-- Runs a hub or a load test, or prints why the arguments ask for neither. -/
def main (arguments : List String) : IO UInt32 := do
  let setting ← IO.getEnv "CHAT_FANOUT_LOG"
  match ChatHub.CommandLine.parse arguments with
  | .error refusal =>
    ChatHub.Host.report (ChatHub.Program.refuse refusal)
    return refusal.exitCode.toUInt32
  | .ok (.hub hub) => ChatHub.Host.serve hub (.ofSetting setting)
  | .ok (.bench bench) =>
    ChatHub.Host.loadTest bench (ChatHub.Program.loadTestFilter bench setting)
