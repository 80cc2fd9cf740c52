import ChatHub.Latency.Session
import ChatHub.Proofs.Latency.Counting
/-!
Where latencies are while a recorder is in use: with a handle, handed over, or merged. No operation
loses one or counts it twice. Main statement: `samples_conserved`, for whole sessions.
-/

set_option autoImplicit false

namespace ChatHub

/-! ## One recorder -/

namespace LatencyRecorder

/-- What has reached a recorder, merged or not. -/
def received (recorder : LatencyRecorder) : Histogram :=
  recorder.merged + recorder.handedOver

@[simp] theorem received_gather (recorder : LatencyRecorder) :
    recorder.gather.received = recorder.received :=
  add_zero (recorder.merged + recorder.handedOver)

private theorem received_take (recorder : LatencyRecorder) (samples : Histogram) :
    (recorder.take samples).received = recorder.received + samples :=
  (add_assoc recorder.merged recorder.handedOver samples).symm

@[simp] theorem received_dropHandle (recorder : LatencyRecorder) (handle : LatencyHandle) :
    (recorder.dropHandle handle).received = recorder.received + handle.held :=
  received_take recorder handle.held

@[simp] theorem held_handle (recorder : LatencyRecorder) : recorder.handle.held = 0 :=
  rfl

end LatencyRecorder

namespace LatencyHandle

variable (handle : LatencyHandle) (recorder : LatencyRecorder)

/-- Whether or not a handle hands over, the two sides together have one more. -/
theorem received_record (latency : Nat) :
    (handle.record latency recorder).2.received + (handle.record latency recorder).1.held =
      recorder.received + handle.held + Histogram.ofLatencies [latency] := by
  have counted := Histogram.record_eq_add (sampleOf_lt_limit latency) handle.held
  rw [Histogram.ofLatencies_singleton]
  simp only [record]
  split
  · rw [counted, add_assoc]
  · rw [LatencyRecorder.received_take, LatencyRecorder.held_handle, add_zero, counted, add_assoc]

private theorem merged_record (latency : Nat) :
    (handle.record latency recorder).2.merged = recorder.merged := by
  simp only [record]
  split <;> rfl

private theorem received_recordAll (latencies : List Nat) :
    (handle.recordAll latencies recorder).2.received +
        (handle.recordAll latencies recorder).1.held =
      recorder.received + handle.held + Histogram.ofLatencies latencies := by
  induction latencies generalizing handle recorder with
  | nil => exact (add_zero _).symm
  | cons latency rest ih =>
    have first := received_record handle recorder latency
    have later := ih (handle.record latency recorder).1 (handle.record latency recorder).2
    rw [first, add_assoc, ← Histogram.ofLatencies_append] at later
    exact later

private theorem merged_recordAll (latencies : List Nat) :
    (handle.recordAll latencies recorder).2.merged = recorder.merged := by
  induction latencies generalizing handle recorder with
  | nil => rfl
  | cons latency rest ih =>
    exact (ih (handle.record latency recorder).1 (handle.record latency recorder).2).trans
      (merged_record handle recorder latency)

end LatencyHandle

/-- How many latencies a summary counts. -/
def LatencySummary.countOf (summary : Option LatencySummary) : Nat :=
  (summary.map LatencySummary.count).getD 0

private theorem LatencySummary.map_count_ofHistogram? (histogram : Histogram) :
    (ofHistogram? histogram).map count =
      if histogram.total = 0 then none else some histogram.total := by
  unfold ofHistogram?
  split <;> rfl

theorem LatencySummary.countOf_ofHistogram? (histogram : Histogram) :
    countOf (ofHistogram? histogram) = histogram.total := by
  rw [countOf, map_count_ofHistogram?]
  split
  · rename_i nothing
    exact nothing.symm
  · rfl

/-! ## Sessions -/

namespace LatencySession

/-- What is with the handles of a roster. -/
def heldBy (handles : Roster Nat LatencyHandle) : Histogram :=
  (handles.entries.map fun entry => entry.2.held).sum

/-- All latencies of a session, wherever they are. -/
def samples (session : LatencySession) : Histogram :=
  session.recorder.merged + session.recorder.handedOver + heldBy session.handles

/-- The latencies that a step records. -/
def recordedIn (session : LatencySession) : Step → List Nat
  | .record name latencies => if session.handles.contains name then latencies else []
  | .threads workers => if session.finished then [] else workers.flatten
  | _ => []

/-- The latencies that have been recorded, in order. -/
def recorded (session : LatencySession) : List Step → List Nat
  | [] => []
  | step :: rest => session.recordedIn step ++ (session.step step).2.recorded rest

/-- The state behind all steps. -/
def last (session : LatencySession) (steps : List Step) : LatencySession :=
  ((session.run steps).map Prod.snd).getLastD session

/-- The summary that an answer holds. -/
def Answer.summary? : Answer → Option (Option LatencySummary)
  | .summary given => some given
  | _ => none

/-- The summaries that were given, in order. -/
def summaries (session : LatencySession) (steps : List Step) : List (Option LatencySummary) :=
  (session.run steps).filterMap fun outcome => outcome.1.summary?

@[simp] theorem last_cons (session : LatencySession) (step : Step) (rest : List Step) :
    session.last (step :: rest) = (session.step step).2.last rest := by
  simp only [last, run, List.map_cons, List.getLastD_cons]

/-! ### One step -/

private theorem heldBy_put (handles : Roster Nat LatencyHandle) (name : Nat)
    (handle : LatencyHandle) :
    heldBy (handles.put name handle) = heldBy (handles.erase name) + handle.held := by
  simp [heldBy, Roster.put]

private theorem heldBy_of_get? {handles : Roster Nat LatencyHandle} (distinct : handles.Distinct)
    {name : Nat} {handle : LatencyHandle} (found : handles.get? name = some handle) :
    heldBy handles = heldBy (handles.erase name) + handle.held := by
  have perm := (distinct.perm_of_get? found).map fun entry => entry.2.held
  rw [heldBy, perm.sum_eq, List.map_cons, List.sum_cons, add_comm, heldBy]

section Step

variable {session : LatencySession}

private theorem handles_dropHandle (session : LatencySession) (name : Nat) :
    (session.dropHandle name).handles = session.handles.erase name := by
  unfold dropHandle
  cases found : session.handles.get? name with
  | none => exact (Roster.erase_of_get?_eq_none found).symm
  | some handle => rfl

private theorem merged_dropHandle (session : LatencySession) (name : Nat) :
    (session.dropHandle name).recorder.merged = session.recorder.merged := by
  unfold dropHandle
  split <;> rfl

/-- What a dropped handle held is with the recorder. -/
theorem samples_dropHandle (distinct : session.handles.Distinct) (name : Nat) :
    (session.dropHandle name).samples = session.samples := by
  unfold dropHandle
  cases found : session.handles.get? name with
  | none => rfl
  | some handle =>
    calc (session.recorder.dropHandle handle).received + heldBy (session.handles.erase name)
        = session.recorder.received + (heldBy (session.handles.erase name) + handle.held) := by
          rw [LatencyRecorder.received_dropHandle, add_assoc, add_comm handle.held]
      _ = session.recorder.received + heldBy session.handles := by
          rw [← heldBy_of_get? distinct found]

private theorem received_work (recorder : LatencyRecorder) (latencies : List Nat) :
    (work recorder latencies).received = recorder.received + Histogram.ofLatencies latencies := by
  have whole := LatencyHandle.received_recordAll recorder.handle recorder latencies
  rw [LatencyRecorder.held_handle, add_zero] at whole
  rw [← whole]
  exact LatencyRecorder.received_dropHandle _ _

private theorem received_foldl_work (recorder : LatencyRecorder) (workers : List (List Nat)) :
    (workers.foldl work recorder).received =
      recorder.received + Histogram.ofLatencies workers.flatten := by
  induction workers generalizing recorder with
  | nil => exact (add_zero _).symm
  | cons latencies rest ih =>
    rw [List.foldl_cons, ih, received_work, List.flatten_cons, Histogram.ofLatencies_append,
      add_assoc]

private theorem merged_foldl_work (recorder : LatencyRecorder) (workers : List (List Nat)) :
    (workers.foldl work recorder).merged = recorder.merged := by
  induction workers generalizing recorder with
  | nil => rfl
  | cons latencies rest ih =>
    exact (ih (work recorder latencies)).trans
      (LatencyHandle.merged_recordAll recorder.handle recorder latencies)

theorem distinct_step (distinct : session.handles.Distinct) (step : Step) :
    (session.step step).2.handles.Distinct := by
  cases step with
  | handle name =>
    simp only [LatencySession.step]
    split
    · exact distinct
    · exact (handles_dropHandle session name ▸ distinct.erase name).put name _
  | record name latencies =>
    simp only [LatencySession.step]
    split
    · exact distinct
    · exact distinct.put name _
  | drop name => exact handles_dropHandle session name ▸ distinct.erase name
  | threads workers =>
    simp only [LatencySession.step]
    split <;> exact distinct
  | summarize =>
    simp only [LatencySession.step]
    split <;> exact distinct
  | finish =>
    simp only [LatencySession.step]
    split <;> exact distinct

theorem samples_step (distinct : session.handles.Distinct) (step : Step) :
    (session.step step).2.samples =
      session.samples + Histogram.ofLatencies (session.recordedIn step) := by
  have nothing : ∀ {after : LatencySession}, after.samples = session.samples →
      after.samples = session.samples + Histogram.ofLatencies [] := by
    intro after same
    exact same.trans (add_zero _).symm
  cases step with
  | handle name =>
    refine nothing ?_
    simp only [LatencySession.step]
    split
    · rfl
    · have alone : (session.dropHandle name).handles.erase name =
          (session.dropHandle name).handles := by
        refine Roster.erase_of_get?_eq_none ?_
        rw [handles_dropHandle, Roster.get?_erase_self]
      rw [← samples_dropHandle distinct name]
      simp only [samples, heldBy_put, alone, LatencyRecorder.held_handle, add_zero]
  | record name latencies =>
    simp only [LatencySession.step]
    split
    · rename_i absent
      have unheard : session.recordedIn (.record name latencies) = [] := by
        simp [recordedIn, Roster.contains, absent]
      rw [unheard]
      exact nothing rfl
    · rename_i handle found
      have heard : session.recordedIn (.record name latencies) = latencies := by
        simp [recordedIn, Roster.contains, found]
      have whole := handle.received_recordAll session.recorder latencies
      have before := heldBy_of_get? distinct found
      rw [heard]
      calc (handle.recordAll latencies session.recorder).2.received +
            heldBy (session.handles.put name (handle.recordAll latencies session.recorder).1)
          = ((handle.recordAll latencies session.recorder).2.received +
              (handle.recordAll latencies session.recorder).1.held) +
              heldBy (session.handles.erase name) := by
            rw [heldBy_put, add_assoc, add_comm (heldBy _)]
        _ = session.recorder.received + heldBy session.handles +
              Histogram.ofLatencies latencies := by
            rw [whole, before]
            simp only [add_assoc, add_comm, add_left_comm]
  | drop name => exact nothing (samples_dropHandle distinct name)
  | threads workers =>
    simp only [LatencySession.step, recordedIn]
    split
    · exact (add_zero _).symm
    · have whole := received_foldl_work session.recorder workers
      calc (workers.foldl work session.recorder).received + heldBy session.handles
          = session.recorder.received + heldBy session.handles +
              Histogram.ofLatencies workers.flatten := by
            rw [whole, add_assoc, add_comm (Histogram.ofLatencies _), ← add_assoc]
  | summarize =>
    refine nothing ?_
    simp only [LatencySession.step]
    split
    · rfl
    · exact congrArg (· + heldBy session.handles)
        (LatencyRecorder.received_gather session.recorder.beginPhase)
  | finish =>
    refine nothing ?_
    simp only [LatencySession.step]
    split
    · rfl
    · exact congrArg (· + heldBy session.handles)
        (LatencyRecorder.received_gather session.recorder.beginPhase)

/-- Only summaries change what is merged, and what they count is what is merged then. -/
theorem merged_step (session : LatencySession) (step : Step) :
    session.recorder.merged.total ≤ (session.step step).2.recorder.merged.total ∧
      ∀ given, (session.step step).1.summary? = some given →
        LatencySummary.countOf given = (session.step step).2.recorder.merged.total := by
  have quiet : ∀ {after : LatencySession} {answer : Answer},
      after.recorder.merged = session.recorder.merged → answer.summary? = none →
      session.recorder.merged.total ≤ after.recorder.merged.total ∧
        ∀ given, answer.summary? = some given →
          LatencySummary.countOf given = after.recorder.merged.total := by
    intro after answer same silent
    refine ⟨Nat.le_of_eq (congrArg Histogram.total same.symm), fun given answered => ?_⟩
    rw [silent] at answered
    cases answered
  have summed : ∀ {after : LatencySession} {answer : Answer},
      after.recorder.merged = session.recorder.received →
      answer = .summary after.recorder.summary →
      session.recorder.merged.total ≤ after.recorder.merged.total ∧
        ∀ given, answer.summary? = some given →
          LatencySummary.countOf given = after.recorder.merged.total := by
    rintro after _ all rfl
    refine ⟨?_, fun given answered => ?_⟩
    · simp only [all, LatencyRecorder.received, Histogram.total, Histogram.tally_add,
        Tally.total_add]
      omega
    · cases answered
      exact LatencySummary.countOf_ofHistogram? _
  cases step with
  | handle name =>
    simp only [LatencySession.step]
    split
    · exact quiet rfl rfl
    · exact quiet (merged_dropHandle session name) rfl
  | record name latencies =>
    simp only [LatencySession.step]
    split
    · exact quiet rfl rfl
    · exact quiet (LatencyHandle.merged_recordAll _ session.recorder latencies) rfl
  | drop name => exact quiet (merged_dropHandle session name) rfl
  | threads workers =>
    simp only [LatencySession.step]
    split
    · exact quiet rfl rfl
    · exact quiet (merged_foldl_work session.recorder workers) rfl
  | summarize =>
    simp only [LatencySession.step]
    split
    · exact quiet rfl rfl
    · exact summed rfl rfl
  | finish =>
    simp only [LatencySession.step]
    split
    · exact quiet rfl rfl
    · exact summed rfl rfl

end Step

/-! ### Whole sessions -/

private theorem samples_last {session : LatencySession} (distinct : session.handles.Distinct)
    (steps : List Step) :
    (session.last steps).samples =
      session.samples + Histogram.ofLatencies (session.recorded steps) := by
  induction steps generalizing session with
  | nil => exact (add_zero _).symm
  | cons step rest ih =>
    rw [last_cons, ih (distinct_step distinct step), samples_step distinct, recorded,
      Histogram.ofLatencies_append, add_assoc]

/-- Counts of summaries lie in order between what was merged at first and what is in the end. -/
theorem summaries_between (session : LatencySession) (steps : List Step) :
    ((session.summaries steps).map LatencySummary.countOf).Pairwise (· ≤ ·) ∧
      session.recorder.merged.total ≤ (session.last steps).recorder.merged.total ∧
      ∀ count ∈ (session.summaries steps).map LatencySummary.countOf,
        session.recorder.merged.total ≤ count ∧
          count ≤ (session.last steps).recorder.merged.total := by
  induction steps generalizing session with
  | nil => simp [summaries, run, last]
  | cons step rest ih =>
    obtain ⟨sorted, grown, between⟩ := ih (session.step step).2
    obtain ⟨grownFirst, counted⟩ := merged_step session step
    rw [last_cons]
    cases answered : (session.step step).1.summary? with
    | none =>
      have same : session.summaries (step :: rest) = (session.step step).2.summaries rest := by
        simp only [summaries, run, List.filterMap_cons, answered]
      rw [same]
      refine ⟨sorted, Nat.le_trans grownFirst grown, fun count member => ?_⟩
      exact ⟨Nat.le_trans grownFirst (between count member).1, (between count member).2⟩
    | some given =>
      have more : session.summaries (step :: rest) =
          given :: (session.step step).2.summaries rest := by
        simp only [summaries, run, List.filterMap_cons, answered]
      have count := counted given answered
      rw [more, List.map_cons, List.pairwise_cons]
      refine ⟨⟨fun later member => ?_, sorted⟩, Nat.le_trans grownFirst grown, fun any member => ?_⟩
      · exact count ▸ (between later member).1
      · rcases List.mem_cons.mp member with rfl | member
        · exact ⟨count ▸ grownFirst, count ▸ grown⟩
        · exact ⟨Nat.le_trans grownFirst (between any member).1, (between any member).2⟩

private theorem samples_total_le (session : LatencySession) :
    session.recorder.merged.total ≤ session.samples.tally.total := by
  simp only [samples, Histogram.total, Histogram.tally_add, Tally.total_add]
  omega

/-- A summary shows everything that no handle holds. -/
theorem summary_step {session : LatencySession} (unfinished : session.finished = false)
    {step : Step} (summarizing : step = .summarize ∨ step = .finish) :
    (session.step step).1 = .summary (LatencySummary.ofHistogram? session.recorder.received) := by
  rcases summarizing with rfl | rfl <;> simp only [LatencySession.step, unfinished] <;> rfl

/-- At every point of a session each latency that was recorded is in one place. Summaries never
count less than an earlier one nor more than was recorded, and one that is taken while there is no
handle counts everything, up to the greatest count there is. -/
theorem samples_conserved (steps : List Step) :
    let session := ({} : LatencySession).last steps
    let recorded := ({} : LatencySession).recorded steps
    let summaries := ({} : LatencySession).summaries steps
    session.recorder.merged + session.recorder.handedOver + heldBy session.handles =
        Histogram.ofLatencies recorded ∧
      (∀ bucket, (Histogram.ofLatencies recorded).tally.count bucket =
        recorded.countP fun latency => Bucket.lowest (sampleOf latency) = bucket) ∧
      (∀ (histogram : Histogram) (latency : Nat),
        (histogram.record? (sampleOf latency) 1).isSome) ∧
      (summaries.map LatencySummary.countOf).Pairwise (· ≤ ·) ∧
      (∀ given ∈ summaries, LatencySummary.countOf given ≤ recorded.length) ∧
      (session.handles.entries = [] → session.finished = false →
        ∀ step, step = .summarize ∨ step = .finish →
          ∃ given, (session.step step).1 = .summary given ∧
            given.map LatencySummary.count =
              if recorded = [] then none else some (min recorded.length Histogram.countLimit)) := by
  intro session recorded summaries
  have conserved : session.samples = Histogram.ofLatencies recorded := by
    rw [samples_last Roster.distinct_empty steps]
    exact zero_add (Histogram.ofLatencies recorded)
  obtain ⟨sorted, -, between⟩ := summaries_between {} steps
  refine ⟨conserved, Histogram.count_ofLatencies recorded, ?_, sorted, ?_, ?_⟩
  · intro histogram latency
    rw [Histogram.record?_eq_some (sampleOf_lt_limit latency)]
    rfl
  · intro given member
    have below := (between _ (List.mem_map_of_mem member)).2
    rw [← Histogram.total_ofLatencies recorded, ← conserved]
    exact Nat.le_trans below (samples_total_le session)
  · intro noHandle unfinished step summarizing
    have all : session.recorder.received = Histogram.ofLatencies recorded := by
      rw [← conserved, samples, heldBy, noHandle]
      exact (add_zero _).symm
    refine ⟨_, summary_step unfinished summarizing, ?_⟩
    rw [all, LatencySummary.map_count_ofHistogram?, Histogram.total, Histogram.total_ofLatencies]
    cases recorded with
    | nil => rfl
    | cons first rest =>
      have counted : min (first :: rest).length Histogram.countLimit ≠ 0 := by
        have room : 0 < Histogram.countLimit := by decide
        rw [List.length_cons]
        omega
      rw [if_neg counted, if_neg (List.cons_ne_nil first rest)]

/-- Records before and after a summary, in a handle that is replaced and in threads. -/
theorem samples_conserved_replaced :
    let session := ({} : LatencySession).last
      [.handle 0, .record 0 [5, 0], .summarize, .record 0 [10 ^ 12], .record 0 [7], .handle 0,
        .threads [[1500], [3000, 8]], .drop 0]
    session.handles.entries = [] ∧ session.finished = false ∧
      ∃ given, (session.step .finish).1 = .summary given ∧
        given.map LatencySummary.count = some 7 := by
  have conserved := samples_conserved
    [.handle 0, .record 0 [5, 0], .summarize, .record 0 [10 ^ 12], .record 0 [7], .handle 0,
      .threads [[1500], [3000, 8]], .drop 0]
  exact ⟨rfl, rfl, conserved.2.2.2.2.2 rfl rfl .finish (.inr rfl)⟩

end LatencySession

end ChatHub
