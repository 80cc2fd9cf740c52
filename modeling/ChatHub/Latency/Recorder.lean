import ChatHub.Latency.Summary
/-!
Recording latencies from many workers. Each worker writes to a handle of its own. The recorder
sees a handle's samples once they are handed over: when the handle is dropped, or with the first
sample the handle records after a summary was asked for.
-/

set_option autoImplicit false

namespace ChatHub

/-- The shared side. Every summary begins a new phase, and what has been handed over is merged by
the next summary. -/
structure LatencyRecorder where
  phase : Nat := 0
  merged : Histogram := {}
  handedOver : Histogram := {}
  deriving Inhabited

/-- One worker's side: the phase it has seen, and the samples it still holds. -/
structure LatencyHandle where
  phase : Nat
  held : Histogram := {}
  deriving Inhabited

/-- The longest latency that is told apart, one minute in nanoseconds. -/
def longestLatency : Nat :=
  60 * 1000000000

def sampleOf (latency : Nat) : Nat :=
  max 1 (min latency longestLatency)

namespace LatencyRecorder

def handle (recorder : LatencyRecorder) : LatencyHandle :=
  { phase := recorder.phase }

def take (recorder : LatencyRecorder) (samples : Histogram) : LatencyRecorder :=
  { recorder with handedOver := recorder.handedOver.merge samples }

def dropHandle (recorder : LatencyRecorder) (handle : LatencyHandle) : LatencyRecorder :=
  recorder.take handle.held

/-- Begins a new phase, in which handles that are still in use hand over what they hold. -/
def beginPhase (recorder : LatencyRecorder) : LatencyRecorder :=
  { recorder with phase := recorder.phase + 1 }

def gather (recorder : LatencyRecorder) : LatencyRecorder :=
  { recorder with
    merged := recorder.merged.merge recorder.handedOver
    handedOver := {} }

def summary (recorder : LatencyRecorder) : Option LatencySummary :=
  LatencySummary.ofHistogram? recorder.merged

/-- Begins a new phase and summarizes at once, before any handle is used again. -/
def summarize (recorder : LatencyRecorder) : Option LatencySummary × LatencyRecorder :=
  let recorder := recorder.beginPhase.gather
  (recorder.summary, recorder)

end LatencyRecorder

namespace LatencyHandle

/-- Records a latency in nanoseconds. A handle that is behind the present phase then hands over
everything it holds. -/
def record (handle : LatencyHandle) (latency : Nat) (recorder : LatencyRecorder) :
    LatencyHandle × LatencyRecorder :=
  let held := handle.held.record (sampleOf latency)
  if handle.phase = recorder.phase then ({ handle with held }, recorder)
  else (recorder.handle, recorder.take held)

def recordAll (handle : LatencyHandle) (latencies : List Nat) (recorder : LatencyRecorder) :
    LatencyHandle × LatencyRecorder :=
  latencies.foldl (fun (state : LatencyHandle × LatencyRecorder) latency =>
    state.1.record latency state.2) (handle, recorder)

end LatencyHandle

end ChatHub
