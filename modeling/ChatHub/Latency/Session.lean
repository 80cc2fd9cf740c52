import ChatHub.Latency.Recorder
import ChatHub.Roster
/-!
One recorder and its handles, used step by step. After the recorder is finished its handles can
still be used, but nobody sees what they record.
-/

set_option autoImplicit false

namespace ChatHub

/-- A recorder that may have been finished, and the handles by name. -/
structure LatencySession where
  recorder : LatencyRecorder := {}
  finished : Bool := false
  handles : Roster Nat LatencyHandle := {}

namespace LatencySession

/-- What a session can be asked to do. Latencies are in nanoseconds. -/
inductive Step where
  | handle (name : Nat)
  | record (name : Nat) (latencies : List Nat)
  | drop (name : Nat)
  /-- One thread for each worker, and all of them are done at the end of the step. -/
  | threads (workers : List (List Nat))
  | summarize
  | finish
  deriving DecidableEq, Repr

inductive Answer where
  | done
  | noHandle
  | finished
  | held (value : Bool)
  | summary (summary : Option LatencySummary)
  deriving Repr

def dropHandle (session : LatencySession) (name : Nat) : LatencySession :=
  match session.handles.get? name with
  | none => session
  | some handle =>
    { session with
      recorder := session.recorder.dropHandle handle
      handles := session.handles.erase name }

/-- A worker's whole life: a handle of its own, its samples, and the end of the handle. -/
def work (recorder : LatencyRecorder) (latencies : List Nat) : LatencyRecorder :=
  let (handle, recorder) := recorder.handle.recordAll latencies recorder
  recorder.dropHandle handle

def step (session : LatencySession) : Step → Answer × LatencySession
  | .handle name =>
    if session.finished then (.finished, session)
    else
      let handle := session.recorder.handle
      let dropped := session.dropHandle name
      (.done, { dropped with handles := dropped.handles.put name handle })
  | .record name latencies =>
    match session.handles.get? name with
    | none => (.noHandle, session)
    | some handle =>
      let (handle, recorder) := handle.recordAll latencies session.recorder
      (.done, { session with recorder, handles := session.handles.put name handle })
  | .drop name => (.held (session.handles.contains name), session.dropHandle name)
  | .threads workers =>
    if session.finished then (.finished, session)
    else (.done, { session with recorder := workers.foldl work session.recorder })
  | .summarize =>
    if session.finished then (.finished, session)
    else
      let (summary, recorder) := session.recorder.summarize
      (.summary summary, { session with recorder })
  | .finish =>
    if session.finished then (.finished, session)
    else
      let (summary, recorder) := session.recorder.summarize
      (.summary summary, { session with recorder, finished := true })

def run (session : LatencySession) : List Step → List (Answer × LatencySession)
  | [] => []
  | first :: rest =>
    let (answer, next) := session.step first
    (answer, next) :: next.run rest

end LatencySession

end ChatHub
