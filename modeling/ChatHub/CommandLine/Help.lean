/-!
What the program says about itself.
-/

set_option autoImplicit false

namespace ChatHub.CommandLine

def programName : String := "chat_fanout"

inductive HelpPage where
  | program
  | hub
  | bench
  | help
  deriving DecidableEq, Repr

namespace HelpPage

def command : HelpPage → String
  | .program => programName
  | .hub => programName ++ " hub"
  | .bench => programName ++ " bench"
  | .help => programName ++ " help"

def usage (page : HelpPage) : String :=
  page.command ++ match page with
    | .program => " <COMMAND>"
    | .hub => " [OPTIONS]"
    | .bench => " [OPTIONS] <HOST> <PORT> <CONCURRENCY> <DURATION>"
    | .help => " [COMMAND]..."

/-- Whether a page's command takes an argument that shows the page. -/
def takesHelp : HelpPage → Bool
  | .help => false
  | .program | .hub | .bench => true

/-- What a page's command is for; the program's own page does not say. -/
def purpose : HelpPage → String
  | .program => ""
  | .hub => "Run the broadcast hub behind the TCP and WebSocket transports"
  | .bench => "Load-test a running hub over its TCP transport"
  | .help => "Print this message or the help of the given subcommand(s)"

def details : HelpPage → List String
  | .program =>
    ["Commands:",
      "  hub    Run the broadcast hub behind the TCP and WebSocket transports",
      "  bench  Load-test a running hub over its TCP transport",
      "  help   Print this message or the help of the given subcommand(s)",
      "",
      "Options:",
      "  -h, --help     Print help",
      "  -V, --version  Print version"]
  | .hub =>
    ["Options:",
      "      --listen <LISTEN>        Address for the JSON-lines TCP transport. "
        ++ "Use port 0 for an ephemeral port [default: 127.0.0.1:9000]",
      "      --ws-listen <WS_LISTEN>  Address for the WebSocket transport "
        ++ "(served at /ws/chat) [default: 127.0.0.1:8080]",
      "  -h, --help                   Print help"]
  | .bench =>
    ["Arguments:",
      "  <HOST>         Hub host name or IP address",
      "  <PORT>         Hub TCP port",
      "  <CONCURRENCY>  Number of virtual users",
      "  <DURATION>     Measured run time in seconds",
      "",
      "Options:",
      "      --quiet                    "
        ++ "Suppress progress output; only the final report is printed",
      "      --json                     Print the report as JSON",
      "      --warmup <WARMUP>          "
        ++ "Seconds between spawning the users and starting the run [default: 3]",
      "      --wait-bound <WAIT_BOUND>  "
        ++ "Seconds a user waits for a broadcast before counting a timeout [default: 10]",
      "      --pacing-ms <PACING_MS>    Milliseconds between probes [default: 10]",
      "      --grace <GRACE>            "
        ++ "Seconds to wait for users to stop before reporting stragglers [default: 30]",
      "  -h, --help                     Print help"]
  | .help =>
    ["Arguments:",
      "  [COMMAND]...  Print help for the subcommand(s)"]

def text (page : HelpPage) : String :=
  let purpose := if page.purpose.isEmpty then [] else [page.purpose, ""]
  "\n".intercalate (purpose ++ ["Usage: " ++ page.usage, ""] ++ page.details) ++ "\n"

end HelpPage

def versionText : String :=
  programName ++ " 0.1.0\n"

end ChatHub.CommandLine
