import ChatHub.Proofs.Latency.Conservation
/-!
A summary tells what was recorded and nothing of how. Runs of a recorder may differ in their
handles, in the order of everything and in the summaries taken on the way, also in what handles did
while one of those was waiting for them. Main statement: `equal_records_equal_summaries`.
-/

set_option autoImplicit false

namespace ChatHub

private theorem Histogram.ofLatencies_perm {latencies others : List Nat}
    (same : (latencies.map sampleOf).Perm (others.map sampleOf)) :
    ofLatencies latencies = ofLatencies others := by
  have singles := (same.map single).sum_eq
  simp only [List.map_map] at singles
  rw [ofLatencies_eq_sum, ofLatencies_eq_sum]
  exact singles

namespace LatencySession

/-- What can happen in turn: a step, and the two ends of a summary that waits for handles which go
on meanwhile. -/
inductive Move where
  | step (step : Step)
  | beginSummary
  | gather
  deriving DecidableEq, Repr

def move (session : LatencySession) : Move → LatencySession
  | .step step => (session.step step).2
  | .beginSummary => { session with recorder := session.recorder.beginPhase }
  | .gather => { session with recorder := session.recorder.gather }

/-- The state behind all moves. -/
def after (session : LatencySession) (moves : List Move) : LatencySession :=
  moves.foldl move session

def recordedBy (session : LatencySession) : Move → List Nat
  | .step step => session.recordedIn step
  | .beginSummary | .gather => []

/-- The latencies that moves have recorded, in order. -/
def recordedAlong (session : LatencySession) : List Move → List Nat
  | [] => []
  | first :: rest => session.recordedBy first ++ (session.move first).recordedAlong rest

section Moves

variable {session : LatencySession}

private theorem distinct_move (distinct : session.handles.Distinct) (move : Move) :
    (session.move move).handles.Distinct := by
  cases move with
  | step step => exact distinct_step distinct step
  | beginSummary => exact distinct
  | gather => exact distinct

private theorem samples_move (distinct : session.handles.Distinct) (move : Move) :
    (session.move move).samples =
      session.samples + Histogram.ofLatencies (session.recordedBy move) := by
  cases move with
  | step step => exact samples_step distinct step
  | beginSummary => exact (add_zero _).symm
  | gather =>
    have gathered := congrArg (· + heldBy session.handles)
      (LatencyRecorder.received_gather session.recorder)
    exact gathered.trans (add_zero _).symm

private theorem samples_after (distinct : session.handles.Distinct) (moves : List Move) :
    (session.after moves).samples =
      session.samples + Histogram.ofLatencies (session.recordedAlong moves) := by
  induction moves generalizing session with
  | nil => exact (add_zero _).symm
  | cons move rest ih =>
    have later := ih (distinct_move distinct move)
    rw [samples_move distinct, add_assoc, ← Histogram.ofLatencies_append] at later
    exact later

end Moves

/-- Once there are no handles, a summary is what a single histogram of everything would give. -/
theorem summary_after {moves : List Move} (noHandle : (after {} moves).handles.entries = [])
    (unfinished : (after {} moves).finished = false) {step : Step}
    (summarizing : step = .summarize ∨ step = .finish) :
    ((after {} moves).step step).1 =
      .summary (LatencySummary.ofHistogram?
        (Histogram.ofLatencies (recordedAlong {} moves))) := by
  have all := @samples_after {} Roster.distinct_empty moves
  rw [samples, heldBy, noHandle] at all
  have received : (after {} moves).recorder.received =
      Histogram.ofLatencies (recordedAlong {} moves) :=
    ((add_zero _).symm.trans all).trans (zero_add _)
  rw [summary_step unfinished summarizing, received]

/-- Two runs that recorded the same samples summarize and finish with the same answer once all
their handles are gone. -/
theorem equal_records_equal_summaries {moves others : List Move}
    (same : ((recordedAlong {} moves).map sampleOf).Perm ((recordedAlong {} others).map sampleOf))
    (noHandle : (after {} moves).handles.entries = [])
    (unfinished : (after {} moves).finished = false)
    (alsoNoHandle : (after {} others).handles.entries = [])
    (alsoUnfinished : (after {} others).finished = false) :
    ∃ summary, ∀ step, step = .summarize ∨ step = .finish →
      ((after {} moves).step step).1 = .summary summary ∧
        ((after {} others).step step).1 = .summary summary := by
  refine ⟨_, fun step summarizing => ⟨summary_after noHandle unfinished summarizing, ?_⟩⟩
  rw [summary_after alsoNoHandle alsoUnfinished summarizing, Histogram.ofLatencies_perm same]

/-- One handle that lives through a summary, against threads and a handle that is replaced. The
longest latency is clamped, and so is none at all. -/
theorem equal_records_equal_summaries_regrouped :
    ∃ summary, ∀ step, step = .summarize ∨ step = .finish →
      ((after {} [.step (.handle 0), .step (.record 0 [5, 0]), .beginSummary,
        .step (.record 0 [10 ^ 12]), .gather, .step (.record 0 [7]),
        .step (.drop 0)]).step step).1 = .summary summary ∧
      ((after {} [.step (.threads [[7], [longestLatency, 1]]),
        .step .summarize, .step (.handle 3), .step (.record 3 [5]), .step (.handle 3),
        .step (.drop 3)]).step step).1 = .summary summary :=
  equal_records_equal_summaries (by decide) rfl rfl rfl rfl

end LatencySession

end ChatHub
