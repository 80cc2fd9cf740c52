import ChatHub.Decimal.Fixed
import ChatHub.Json.Tree
import ChatHub.Latency.Summary
/-!
The result of a load test, as a text for people and as a document for programs.
-/

set_option autoImplicit false

namespace ChatHub

/-- What a run measured. `throughput` is in samples per second of run time; there is no latency
when nothing was measured. -/
structure Report where
  concurrency : Nat
  duration : Nat
  samples : Nat
  timeouts : Nat
  probes : Nat
  connectFailures : Nat
  /-- Users whose link was lost before the run ended. -/
  linkFailures : Nat
  /-- Users that had not stopped when the grace time was over. -/
  stragglers : Nat
  throughput : Float
  latency : Option LatencySummary
  deriving Repr

namespace Report

def hasData (report : Report) : Bool :=
  report.latency.isSome

def rule : String :=
  "---------------------------------------------------------"

/-- Amounts in a text have two places. -/
def amount (value : Float) : String :=
  Decimal.fixedText 2 value

def header (report : Report) : List String :=
  ["-------------------- Benchmark Results --------------------",
    "Virtual Users: " ++ toString report.concurrency,
    "Duration: " ++ toString report.duration ++ " s",
    "Probes Sent: " ++ toString report.probes,
    "Connect Failures: " ++ toString report.connectFailures,
    "Lost Links: " ++ toString report.linkFailures,
    "Stragglers: " ++ toString report.stragglers]

def timeoutLine (report : Report) : String :=
  "Total Timeouts: " ++ toString report.timeouts ++ " (indicates back-pressure)"

def latencyLines (latency : LatencySummary) : List String :=
  ["Latency (microseconds):",
    "  min:          " ++ toString latency.least,
    "  mean:         " ++ amount latency.mean,
    "  p50 (median): " ++ toString latency.median,
    "  p90:          " ++ toString latency.p90,
    "  p99:          " ++ toString latency.p99,
    "  p99.9:        " ++ toString latency.p999,
    "  max:          " ++ toString latency.greatest]

def lines (report : Report) : List String :=
  report.header ++
    match report.latency with
    | none =>
      [report.timeoutLine,
        "No measurements were recorded. This might indicate a connection or logic issue.",
        rule]
    | some latency =>
      ["Total Messages Measured: " ++ toString report.samples,
        report.timeoutLine,
        "Throughput: " ++ amount report.throughput ++ " msg/sec",
        rule]
        ++ latencyLines latency ++ [rule]

/-- The text for people. The last line has no line break. -/
def text (report : Report) : String :=
  "\n".intercalate report.lines

def latencyTree (latency : LatencySummary) : Json.Tree :=
  .object
    [("count", .whole latency.count),
      ("min_us", .whole latency.least),
      ("mean_us", .double latency.mean),
      ("p50_us", .whole latency.median),
      ("p90_us", .whole latency.p90),
      ("p99_us", .whole latency.p99),
      ("p999_us", .whole latency.p999),
      ("max_us", .whole latency.greatest)]

def tree (report : Report) : Json.Tree :=
  .object
    [("concurrency", .whole report.concurrency),
      ("duration_secs", .whole report.duration),
      ("samples", .whole report.samples),
      ("timeouts", .whole report.timeouts),
      ("probes_sent", .whole report.probes),
      ("connect_failures", .whole report.connectFailures),
      ("link_failures", .whole report.linkFailures),
      ("stragglers", .whole report.stragglers),
      ("throughput", .double report.throughput),
      ("latency", (report.latency.map latencyTree).getD .null)]

def json (report : Report) : String :=
  report.tree.text

end Report

end ChatHub
