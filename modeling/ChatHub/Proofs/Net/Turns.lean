import ChatHub.Proofs.Net.Tasks
/-!
A service that takes one arrival after the other, as a run of tasks that wait for each other: each
makes all calls that come of what it has read before any other one does something. Main statement:
`Concurrent.exists_run_of_play`.
-/

set_option autoImplicit false

namespace ChatHub

open Hub Wire
open Service (sentTo along play deliveries)

/-! ## The hub behind what one connection says -/

namespace Hub

variable {hub next : Hub} {id : ConnectionId}

/-- A publish depends on what is published and when only by the stamped message. -/
private theorem Step.eq_publish {message : Inbound} {timestamp : String}
    (step : Step hub (.published id (message.stamp timestamp)) next) :
    next = (hub.publish id message timestamp).2 := by
  generalize isEvent : Event.published id (message.stamp timestamp) = event at step
  cases step with
  | publish origin other moment =>
    obtain ⟨rfl, same⟩ := Event.published.inj isEvent
    simp only [Hub.publish, same]
  | attach | detach | dropMailbox | poll | drain => cases isEvent

end Hub

namespace Concurrent

variable {state next last : Concurrent} {moves : List Move} {socket : Nat} {id : ConnectionId}
  {listener : Listener} {side : Served}

/-! ## One publish after the other -/

/-- A run in which no two publishes overlap, with none under way in the end. -/
structure OneByOne (moves : List Move) (state : Concurrent) : Prop where
  ran : run? {} moves = some state
  idle : ∀ origin, state.shared.flights.get? origin = none
  apart : ∀ earlier later, earlier < later → later < state.shared.publications.length →
    Apart moves earlier later

theorem oneByOne_nil : OneByOne [] {} where
  ran := rfl
  idle _ := rfl
  apart _ _ _ late := absurd late (Nat.not_lt_zero _)

/-- At most one publish more, which is over again. -/
theorem OneByOne.append (oneByOne : OneByOne moves state) {more : List Move}
    (ran : state.run? more = some next) (idle : ∀ origin, next.shared.flights.get? origin = none)
    (few : next.shared.publications.length ≤ state.shared.publications.length + 1) :
    OneByOne (moves ++ more) next where
  ran := by
    rw [run?_append, oneByOne.ran]
    exact ran
  idle := idle
  apart earlier later inOrder late := by
    rcases Nat.lt_or_ge later state.shared.publications.length with old | new
    · exact (oneByOne.apart earlier later inOrder old).append more
    · refine ⟨moves, more, state, rfl, oneByOne.ran, ?_, by omega, new⟩
      intro origin flight found
      cases (oneByOne.idle origin).symm.trans found

/-- What the calls of one task leave behind: the hub, the task itself, and what was said. -/
structure Leaves (state : Concurrent) (socket : Nat) (hub : Hub) (task? : Option Task)
    (said : List Occasion) (next : Concurrent) : Prop where
  hub : next.shared.hub = hub
  tasks : ∀ other, next.tasks.get? other =
    if other = socket then task? else state.tasks.get? other
  sent : next.sent = state.sent
  said : next.said = state.said ++ said

theorem Leaves.trans {middle : Concurrent} {first second : Hub} {one two : Option Task}
    {earlier later : List Occasion} (before : Leaves state socket first one earlier middle)
    (after : Leaves middle socket second two later next) :
    Leaves state socket second two (earlier ++ later) next where
  hub := after.hub
  tasks other := by
    rw [after.tasks, before.tasks]
    split <;> rfl
  sent := after.sent.trans before.sent
  said := by rw [after.said, before.said, List.append_assoc]

theorem get?_settle (task? : Option Task) (other : Nat) :
    (state.settle socket task?).tasks.get? other =
      if other = socket then task? else state.tasks.get? other := by
  cases task? with
  | none => exact Roster.get?_erase _ _ _
  | some task => exact Roster.get?_put _ _ _ _

/-! ## One call -/

/-- A task goes on with its publish as the hub's part of it goes on. -/
private theorem run?_share {shared : Interleaved.State}
    (speaks : state.speakerAt? socket = some (id, listener))
    (targets : List (ConnectionId × ConnectionId))
    (ran : state.shared.run? (targets.map (.deliver id) ++ [.finish id]) = some shared) :
    state.run? (targets.map (.deliver socket) ++ [.finish socket]) =
      some { state with shared } := by
  have one {state : Concurrent} (speaks : state.speakerAt? socket = some (id, listener))
      (move : ConnectionId → Interleaved.Move) {shared : Interleaved.State}
      (stepped : state.shared.step? (move id) = some shared) :
      state.share socket move = some { state with shared } := by
    simp [share, speaks, stepped]
  induction targets generalizing state with
  | nil =>
    obtain ⟨last, stepped, same⟩ := Option.bind_eq_some_iff.mp ran
    cases same
    exact run?_cons (one speaks _ stepped) rfl
  | cons target rest ih =>
    obtain ⟨middle, stepped, later⟩ := Option.bind_eq_some_iff.mp ran
    exact run?_cons (one speaks (.deliver · target) stepped) (ih speaks later)

private theorem step?_call {call : Call} {rest : List Call} {shared : Interleaved.State}
    (found : state.tasks.get? socket = some ⟨side, call :: rest⟩)
    (speaks : side.speaker? = some (id, listener)) (idle : state.shared.flights.get? id = none)
    {timestamp : String} (stepped : state.shared.step? (call.move id timestamp) = some shared) :
    state.step? (.call socket timestamp) =
      some ({ state with
        shared, said := state.said ++ (call.occasion? id timestamp).toList }.settle socket
          (if call = Call.abandon then none else some ⟨side, rest⟩)) := by
  have speaker : state.speakerAt? socket = some (id, listener) := by
    rw [speakerAt?, found]
    exact speaks
  have noFlight : state.shared.flights.contains id = false := by
    rw [Roster.contains, idle]
    rfl
  simp [step?, found, speaker, noFlight, stepped]

private theorem OneByOne.call (oneByOne : OneByOne moves state) {call : Call} {rest : List Call}
    (found : state.tasks.get? socket = some ⟨side, call :: rest⟩)
    (speaks : side.speaker? = some (id, listener)) (silent : call.occasion? id "" = none)
    {shared : Interleaved.State} (stepped : state.shared.step? (call.move id "") = some shared)
    (flights : shared.flights = state.shared.flights) :
    ∃ moves next, OneByOne moves next ∧ Leaves state socket shared.hub
      (if call = Call.abandon then none else some ⟨side, rest⟩) [] next := by
  have ran : state.run? [.call socket ""] = some _ :=
    run?_cons (step?_call found speaks (oneByOne.idle id) stepped) rfl
  have same := (Interleaved.frame_of_step stepped).publications (Call.move_ne_snapshot silent)
  refine ⟨_, _, oneByOne.append ran ?_ ?_, ?_⟩
  · intro origin
    exact (congrArg (·.get? origin) flights).trans (oneByOne.idle origin)
  · exact Nat.le_succ_of_le (Nat.le_of_eq (congrArg List.length same))
  · exact ⟨rfl, get?_settle _, rfl, by rw [silent]; rfl⟩

private theorem OneByOne.publish (oneByOne : OneByOne moves state) {call : Call} {rest : List Call}
    (found : state.tasks.get? socket = some ⟨side, call :: rest⟩)
    (speaks : side.speaker? = some (id, listener)) {utterance : Utterance} {timestamp : String}
    (spoken : call.occasion? id timestamp = some ⟨utterance, timestamp⟩) :
    ∃ moves next, OneByOne moves next ∧
      Leaves state socket (state.shared.hub.publish id utterance.inbound timestamp).2
        (some ⟨side, rest⟩) [⟨utterance, timestamp⟩] next := by
  have goesOn : call ≠ Call.abandon := by
    rintro rfl
    cases spoken
  obtain ⟨isSnapshot, _⟩ := Call.move_of_occasion spoken
  obtain ⟨begun, shared, first, ran, hub, flights, published⟩ :=
    Interleaved.run?_publish (oneByOne.idle id) utterance.inbound timestamp
  have start := step?_call found speaks (oneByOne.idle id) (isSnapshot ▸ first)
  rw [spoken, if_neg goesOn] at start
  let occasion : Occasion := ⟨utterance, timestamp⟩
  let calling := { state with shared := begun, said := state.said ++ [occasion] }.settle socket
    (some ⟨side, rest⟩)
  have speaker : calling.speakerAt? socket = some (id, listener) := by
    rw [speakerAt?_settle, if_pos rfl]
    exact speaks
  have tasks : ∀ other, calling.tasks.get? other =
      if other = socket then some ⟨side, rest⟩ else state.tasks.get? other := get?_settle _
  have whole := run?_share speaker (state.shared.hub.snapshot id) ran
  refine ⟨_, _, oneByOne.append (run?_cons start whole) ?_ ?_, ?_⟩
  · intro origin
    exact (flights origin).trans (oneByOne.idle origin)
  · change shared.publications.length ≤ _
    rw [published, List.length_append]
    exact Nat.le_refl _
  · exact ⟨hub, tasks, rfl, rfl⟩

/-! ## All calls of a task -/

/-- A task that has something to say says it and then may leave. -/
private theorem OneByOne.saying (oneByOne : OneByOne moves state) {calls : List Call}
    {leaves : Bool} (found : state.tasks.get? socket = some ⟨side, Task.saying calls leaves⟩)
    (speaks : side.speaker? = some (id, listener)) {said : List Utterance}
    {timestamp : String} {hub : Hub}
    (each : calls.map (Call.occasion? id timestamp) = said.map fun utterance =>
      some ⟨utterance, timestamp⟩)
    (run : Hub.Run state.shared.hub
      (publishing id timestamp (said.map Utterance.inbound) leaves) hub) :
    ∃ moves next, OneByOne moves next ∧
      Leaves state socket hub (if leaves then none else some ⟨side, []⟩)
        (said.map (⟨·, timestamp⟩)) next := by
  induction calls generalizing state moves said with
  | nil =>
    obtain rfl : said = [] := List.map_eq_nil_iff.mp each.symm
    cases leaves with
    | false =>
      cases run
      refine ⟨moves, state, oneByOne, rfl, fun other => ?_, rfl, (List.append_nil _).symm⟩
      split
      · rename_i same
        rw [same]
        exact found
      · rfl
    | true =>
      cases run with
      | cons left later =>
        cases left
        cases later with
        | cons gave none =>
          cases gave
          cases none
          obtain ⟨_, middle, detached, first⟩ := oneByOne.call found speaks rfl rfl rfl
          have foundNext := (first.tasks socket).trans (if_pos rfl)
          obtain ⟨_, last, abandoned, second⟩ := detached.call foundNext speaks rfl rfl rfl
          have hubs := second.hub.trans (congrArg (Hub.dropMailbox · id) first.hub)
          exact ⟨_, last, abandoned, { first.trans second with hub := hubs }⟩
  | cons call rest ih =>
    obtain ⟨utterance, others, rfl, spoken, eachOther⟩ := List.map_eq_cons_iff.mp each.symm
    cases run with
    | cons step later =>
      obtain ⟨_, middle, published, first⟩ :=
        oneByOne.publish found speaks spoken.symm
      obtain ⟨_, last, done, second⟩ := ih published ((first.tasks socket).trans (if_pos rfl))
        eachOther.symm (by rw [first.hub, ← step.eq_publish]; exact later)
      exact ⟨_, last, done, first.trans second⟩

/-! ## A service -/

variable {service : Service} {sent : List (ConnectionId × Parcel)} {said : List Occasion}
  {more : List Utterance}
  {timestamp : String} {arrival : Arrival}

/-- A run that has done what a service did, one publish after the other; no task has a call left. -/
structure Replays (service : Service) (sent : List (ConnectionId × Parcel))
    (said : List Occasion) (moves : List Move) (state : Concurrent) : Prop extends
    OneByOne moves state where
  hub : state.shared.hub = service.hub
  tasks : ∀ socket, state.tasks.get? socket =
    (service.sockets.get? socket).map fun side => ⟨side, []⟩
  sent : state.sent = sent
  said : state.said = said

/-- One task has done what happened at its socket. -/
private theorem Replays.of_leaves (replays : Replays service sent said moves state)
    {taken : Service} {events : List Event} (spec : service.Taken socket events taken)
    {later : List Move} (oneByOne : OneByOne later next) {task? : Option Task}
    {occasions : List Occasion} (leaves : Leaves state socket taken.hub task? occasions next)
    (isTask : task? = (taken.sockets.get? socket).map fun side => ⟨side, []⟩) :
    Replays taken sent (said ++ occasions) later next where
  toOneByOne := oneByOne
  hub := leaves.hub
  tasks other := by
    rw [leaves.tasks]
    split
    · rename_i same
      rw [same, isTask]
    · rename_i different
      rw [spec.others other different, replays.tasks]
  sent := leaves.sent.trans replays.sent
  said := by rw [leaves.said, replays.said]

private theorem OneByOne.read (oneByOne : OneByOne moves state) {task? : Option Task}
    (same : (task?.bind fun task => task.side.speaker?) = state.speakerAt? socket)
    (goes : state.step? (.arrive socket arrival) = state.goOn socket task?) :
    ∃ moves next, OneByOne moves next ∧ Leaves state socket state.shared.hub task? [] next := by
  have noJoin : ((state.speakerAt? socket).isNone &&
      (task?.bind fun task => task.side.speaker?).isSome) = false := by
    rw [same]
    cases state.speakerAt? socket <;> rfl
  have ran : state.run? [.arrive socket arrival] = some (state.settle socket task?) := by
    refine run?_cons (goes.trans ?_) rfl
    rw [goOn, noJoin]
    rfl
  exact ⟨_, _, oneByOne.append ran oneByOne.idle (Nat.le_succ _),
    ⟨rfl, get?_settle task?, rfl, (List.append_nil _).symm⟩⟩

/-- A task becomes a connection by what it reads, and registers it. -/
private theorem OneByOne.join (oneByOne : OneByOne moves state) {calls : List Call}
    (nobody : state.speakerAt? socket = none)
    (speaks : side.speaker? = some (state.shared.hub.nextId, listener))
    (goes : state.step? (.arrive socket arrival) =
      state.goOn socket (some ⟨side, .enroll :: calls⟩)) :
    ∃ moves next, OneByOne moves next ∧
      Leaves state socket state.shared.hub.attach.2 (some ⟨side, calls⟩) [] next := by
  have consistent := (orderly_of_run oneByOne.ran orderly_empty).reached.consistent
  obtain ⟨allocated, first, flights, publications, second⟩ := Interleaved.step?_attach consistent
  let joining := { state with shared := allocated }.settle socket (some ⟨side, .enroll :: calls⟩)
  have went : state.run? [.arrive socket arrival] = some joining := by
    refine run?_cons (goes.trans ?_) rfl
    rw [goOn, nobody, Option.bind_some, speaks]
    simp only [Option.isNone_none, Option.isSome_some, Bool.and_self, if_true, first,
      Option.map_some]
    rfl
  have joined : OneByOne (moves ++ [.arrive socket arrival]) joining := by
    refine oneByOne.append went (fun origin => ?_) ?_
    · exact (congrArg (·.get? origin) flights).trans (oneByOne.idle origin)
    · exact Nat.le_succ_of_le (Nat.le_of_eq (congrArg List.length publications))
  have settled : ∀ other, joining.tasks.get? other =
      if other = socket then some ⟨side, .enroll :: calls⟩ else state.tasks.get? other :=
    get?_settle _
  obtain ⟨_, last, done, leaves⟩ :=
    joined.call ((settled socket).trans (if_pos rfl)) speaks rfl second flights.symm
  refine ⟨_, last, done, leaves.hub, fun other => ?_, leaves.sent, leaves.said⟩
  rw [leaves.tasks, settled]
  split <;> rfl

/-! ## One turn -/

private theorem map_occasion {α : Type} (call : α → Call) (say : α → Utterance)
    (each : ∀ item, (call item).occasion? id timestamp = some ⟨say item, timestamp⟩)
    (items : List α) :
    (items.map call).map (Call.occasion? id timestamp) =
      (items.map say).map fun utterance => some ⟨utterance, timestamp⟩ := by
  rw [List.map_map, List.map_map]
  exact List.map_congr_left fun item _ => each item

private theorem inbound_lines (id : ConnectionId) (messages : List Inbound) :
    (messages.map (Utterance.line id)).map Utterance.inbound = messages := by
  rw [List.map_map]
  exact List.map_id _

/-- A task that is a connection by now says what it has read. -/
private theorem Replays.speaks (replays : Replays service sent said moves state)
    {taken : Service} {events : List Event} (spec : service.Taken socket events taken)
    {later : List Move} {reading : Concurrent} (oneByOne : OneByOne later reading) {hub : Hub}
    {calls : List Call} {leaves : Bool}
    (first : Leaves state socket hub (some ⟨side, Task.saying calls leaves⟩) [] reading)
    (speaks : side.speaker? = some (id, listener))
    (each : calls.map (Call.occasion? id timestamp) = more.map fun utterance =>
      some ⟨utterance, timestamp⟩)
    (run : Hub.Run hub (publishing id timestamp (more.map Utterance.inbound) leaves) taken.hub)
    (left : taken.sockets.get? socket = if leaves then none else some side) :
    ∃ moves next, Replays taken sent (said ++ more.map (⟨·, timestamp⟩)) moves next := by
  obtain ⟨_, last, done, second⟩ := oneByOne.saying ((first.tasks socket).trans (if_pos rfl))
    speaks each (first.hub ▸ run)
  refine ⟨_, last, replays.of_leaves spec done (first.trans second) ?_⟩
  rw [left]
  split <;> rfl

/-- A task that is no connection reads, and says nothing. -/
private theorem Replays.reads (replays : Replays service sent said moves state)
    {taken : Service} {events : List Event} (spec : service.Taken socket events taken)
    (sameHub : taken.hub = service.hub) {side? : Option Served}
    (left : taken.sockets.get? socket = side?)
    (same : side?.bind Served.speaker? = state.speakerAt? socket)
    (goes : state.step? (.arrive socket arrival) =
      state.goOn socket (side?.map fun side => ⟨side, []⟩)) :
    ∃ moves next, Replays taken sent (said ++ []) moves next := by
  have speaker : ((side?.map fun side => (⟨side, []⟩ : Task)).bind fun task =>
      task.side.speaker?) = state.speakerAt? socket := by
    rw [Option.bind_map]
    exact same
  obtain ⟨_, next, read, leaves⟩ := replays.read speaker goes
  have hub := (leaves.hub.trans replays.hub).trans sameHub.symm
  exact ⟨_, next, replays.of_leaves spec read { leaves with hub } (congrArg _ left.symm)⟩

private theorem Replays.stays (replays : Replays service sent said moves state) :
    ∃ moves next, Replays service sent (said ++ []) moves next := by
  rw [List.append_nil]
  exact ⟨moves, state, replays⟩

section Take

variable (timestamp) (arrival)

private theorem Replays.take_none (replays : Replays service sent said moves state)
    (found : service.sockets.get? socket = none) :
    ∃ moves next, Replays (service.take timestamp socket arrival).2 sent
      (said ++ (service.utterances socket arrival).map (⟨·, timestamp⟩)) moves next := by
  have known : state.tasks.get? socket = none := by
    rw [replays.tasks, found]
    rfl
  have nobody : state.speakerAt? socket = none := by
    rw [speakerAt?, known]
    rfl
  cases arrival with
  | bytes bytes | ended | broken =>
    simp only [Service.take, Service.utterances, found]
    exact replays.stays
  | accepted listener =>
    have spec := service.take_spec timestamp socket (.accepted listener)
    have spoken : service.utterances socket (.accepted listener) = [] := by
      simp only [Service.utterances, found]
    have goes : state.step? (.arrive socket (.accepted listener)) =
        state.goOn socket (some (Task.accept state.shared.hub.nextId listener)) := by
      simp only [step?, known]
    rw [spoken]
    cases listener with
    | webSocket =>
      have left : (service.take timestamp socket (.accepted .webSocket)).2.hub = service.hub ∧
          (service.take timestamp socket (.accepted .webSocket)).2.sockets.get? socket =
            some (.request []) := by
        simp only [Service.take, found, Service.get?_settle, if_true]
        exact ⟨rfl, rfl⟩
      exact replays.reads spec left.1 left.2 nobody.symm goes
    | tcp =>
      have left : (service.take timestamp socket (.accepted .tcp)).2.hub = service.hub.attach.2 ∧
          (service.take timestamp socket (.accepted .tcp)).2.sockets.get? socket =
            some (.tcp { connection := state.shared.hub.nextId }) := by
        rw [replays.hub]
        simp only [Service.take, found, Service.get?_settle, if_true]
        exact ⟨rfl, rfl⟩
      obtain ⟨_, _, joined, leaves⟩ := replays.join nobody rfl goes
      have hub := leaves.hub.trans ((congrArg (·.attach.2) replays.hub).trans left.1.symm)
      exact ⟨_, _, replays.of_leaves spec joined { leaves with hub } (by rw [left.2]; rfl)⟩

private theorem Replays.take_tcp (replays : Replays service sent said moves state)
    (steady : service.Steady) {peer : TcpPeer}
    (found : service.sockets.get? socket = some (.tcp peer)) :
    ∃ moves next, Replays (service.take timestamp socket arrival).2 sent
      (said ++ (service.utterances socket arrival).map (⟨·, timestamp⟩)) moves next := by
  have spec := service.take_spec timestamp socket arrival
  have known : state.tasks.get? socket = some ⟨.tcp peer, []⟩ := by
    rw [replays.tasks, found]
    rfl
  obtain ⟨connection, held, _⟩ := peer
  obtain rfl : _ = true := steady.isOpen found
  by_cases accepts : ∃ listener, arrival = .accepted listener
  · obtain ⟨listener, rfl⟩ := accepts
    simp only [Service.take, Service.utterances, found]
    exact replays.stays
  · obtain ⟨events, left⟩ := Service.take_tcp timestamp found
      (fun listener same => accepts ⟨listener, same⟩)
    let added := Arrival.adds held arrival
    have spoken : service.utterances socket arrival =
        (beforeError added).map (.line connection) := by
      simp only [Service.utterances, found]
      rfl
    rw [← inbound_lines connection (beforeError added)] at events
    have goes : state.step? (.arrive socket arrival) = state.goOn socket
        (some ⟨.tcp ⟨connection, (held.feed (Arrival.sent [arrival])).1, true⟩,
          Task.saying ((beforeError added).map .line) (arrival.isLast || hasError added)⟩) := by
      simp only [step?, known]
      rfl
    obtain ⟨_, _, read, first⟩ := replays.read (by rw [speakerAt?, known]; rfl) goes
    rw [spoken]
    exact replays.speaks spec read first rfl
      (map_occasion .line (.line connection) (fun _ => rfl) _)
      (by rw [replays.hub, ← events]; exact spec.run) left

private theorem Replays.take_webSocket (replays : Replays service sent said moves state)
    (steady : service.Steady) {peer : SocketPeer} {reader : FrameReader}
    (found : service.sockets.get? socket = some (.webSocket peer reader)) :
    ∃ moves next, Replays (service.take timestamp socket arrival).2 sent
      (said ++ (service.utterances socket arrival).map (⟨·, timestamp⟩)) moves next := by
  have spec := service.take_spec timestamp socket arrival
  have known : state.tasks.get? socket = some ⟨.webSocket peer reader, []⟩ := by
    rw [replays.tasks, found]
    rfl
  obtain ⟨connection, _⟩ := peer
  obtain rfl : _ = true := steady.isOpen found
  obtain ⟨events, left⟩ := Service.take_webSocket timestamp found arrival
  let texts := SocketEvent.texts (Arrival.addsFrames reader arrival)
  have spoken : service.utterances socket arrival = texts.map (.frame connection) := by
    cases arrival <;> simp only [Service.utterances, found] <;> rfl
  rw [← Service.inbound_frames] at events
  have goes : state.step? (.arrive socket arrival) = state.goOn socket
      (some ⟨.webSocket { connection } (Arrival.advance reader arrival),
        Task.saying (texts.map .frame)
          ((Arrival.addsFrames reader arrival).any FrameReader.isLast)⟩) := by
    simp only [step?, known]
    rfl
  obtain ⟨_, _, read, first⟩ := replays.read (by rw [speakerAt?, known]; rfl) goes
  rw [spoken]
  exact replays.speaks spec read first rfl
    (map_occasion .frame (.frame connection) (fun _ => rfl) _)
    (by rw [replays.hub, ← events]; exact spec.run) left

/-- A request is accepted, or what arrives does nothing to the hub. -/
private theorem request_cases {held : List UInt8}
    (found : service.sockets.get? socket = some (.request held)) :
    (∃ chunk behind, arrival = .bytes chunk ∧ service.Upgrades socket chunk behind) ∨
      ∃ side? : Option Served,
        (service.take timestamp socket arrival).2.hub = service.hub ∧
        (service.take timestamp socket arrival).2.sockets.get? socket = side? ∧
        service.utterances socket arrival = [] ∧ side?.bind Served.speaker? = none ∧
        ∀ new, Task.read new (.request held) arrival = side?.map fun side => ⟨side, []⟩ := by
  cases arrival with
  | accepted listener =>
    right
    refine ⟨some (.request held), ?_, ?_, ?_, rfl, fun _ => rfl⟩
    · simp only [Service.take, found]
    · simp only [Service.take, found]
    · simp only [Service.utterances, found]
  | ended | broken =>
    right
    refine ⟨none, ?_, ?_, ?_, rfl, fun _ => rfl⟩
    · simp only [Service.take, found]
      rfl
    · simp only [Service.take, found, Service.get?_settle, if_true]
      rfl
    · simp only [Service.utterances, found]
  | bytes chunk =>
    cases split : Served.splitHead? (held ++ chunk) with
    | none =>
      right
      refine ⟨some (.request (held ++ chunk)), ?_, ?_, ?_, rfl, fun _ => ?_⟩
      · simp only [Service.take, found, Served.receive, split]
        rfl
      · simp only [Service.take, found, Served.receive, split, Service.get?_settle, if_true]
        rfl
      · simp only [Service.utterances, found, split]
      · simp only [Task.read, split, Option.map_some]
    | some halves =>
      obtain ⟨head, behind⟩ := halves
      by_cases accepted :
          (Handshake.answer (head.map fun byte => Char.ofNat byte.toNat)).isAccepted = true
      · exact .inl ⟨chunk, behind, rfl, held, head, found, split, accepted⟩
      · right
        refine ⟨none, ?_, ?_, ?_, rfl, fun _ => ?_⟩
        · simp only [Service.take, found, Served.receive, split, if_neg accepted]
          rfl
        · simp only [Service.take, found, Served.receive, split, if_neg accepted,
            Service.get?_settle, if_true]
          rfl
        · simp only [Service.utterances, found, split, if_neg accepted]
        · simp only [Task.read, split, if_neg accepted, Option.map_none]

private theorem Replays.upgrade (replays : Replays service sent said moves state)
    {chunk behind : List UInt8} (upgrades : service.Upgrades socket chunk behind) :
    ∃ moves next, Replays (service.take timestamp socket (.bytes chunk)).2 sent
      (said ++ (service.utterances socket (.bytes chunk)).map (⟨·, timestamp⟩)) moves next := by
  obtain ⟨events, left⟩ := Service.take_upgrade timestamp upgrades
  have spec := service.take_spec timestamp socket (.bytes chunk)
  have run := spec.run
  rw [← Service.inbound_frames] at events
  rw [events, ← replays.hub] at run
  rw [← replays.hub] at left
  obtain ⟨held, head, found, split, accepted⟩ := upgrades
  let texts := SocketEvent.texts (FrameReader.receive {} behind).2
  have known : state.tasks.get? socket = some ⟨.request held, []⟩ := by
    rw [replays.tasks, found]
    rfl
  have spoken : service.utterances socket (.bytes chunk) =
      texts.map (.frame state.shared.hub.nextId) := by
    simp only [Service.utterances, found, split, accepted, if_true, replays.hub]
    rfl
  have goes : state.step? (.arrive socket (.bytes chunk)) = state.goOn socket
      (some ⟨.webSocket { connection := state.shared.hub.nextId }
          (FrameReader.receive {} behind).1,
        .enroll :: Task.saying (texts.map .frame)
          ((FrameReader.receive {} behind).2.any FrameReader.isLast)⟩) := by
    simp only [step?, known, Task.read, split, accepted, if_true]
    rfl
  obtain ⟨_, _, joined, first⟩ := replays.join (by rw [speakerAt?, known]; rfl) rfl goes
  rw [spoken]
  cases run with
  | cons attached later =>
    cases attached
    exact replays.speaks spec joined first rfl
      (map_occasion .frame (.frame state.shared.hub.nextId) (fun _ => rfl) _) later left

private theorem Replays.take_request (replays : Replays service sent said moves state)
    {held : List UInt8} (found : service.sockets.get? socket = some (.request held)) :
    ∃ moves next, Replays (service.take timestamp socket arrival).2 sent
      (said ++ (service.utterances socket arrival).map (⟨·, timestamp⟩)) moves next := by
  have known : state.tasks.get? socket = some ⟨.request held, []⟩ := by
    rw [replays.tasks, found]
    rfl
  rcases request_cases timestamp arrival found with
    ⟨chunk, behind, rfl, upgrades⟩ | ⟨side?, sameHub, left, spoken, nobody, reads⟩
  · exact replays.upgrade timestamp upgrades
  · have goes : state.step? (.arrive socket arrival) =
        state.goOn socket (side?.map fun side => ⟨side, []⟩) := by
      simp only [step?, known, reads]
    have same : side?.bind Served.speaker? = state.speakerAt? socket := by
      rw [nobody, speakerAt?, known]
      rfl
    rw [spoken]
    exact replays.reads (service.take_spec ..) sameHub left same goes

private theorem Replays.take (replays : Replays service sent said moves state)
    (steady : service.Steady) (socket : Nat) :
    ∃ moves next, Replays (service.take timestamp socket arrival).2 sent
      (said ++ (service.utterances socket arrival).map (⟨·, timestamp⟩)) moves next := by
  cases found : service.sockets.get? socket with
  | none => exact replays.take_none timestamp arrival found
  | some served =>
    cases served with
    | tcp peer => exact replays.take_tcp timestamp arrival steady found
    | request held => exact replays.take_request timestamp arrival found
    | webSocket peer reader => exact replays.take_webSocket timestamp arrival steady found

end Take

private theorem Replays.forward (replays : Replays service sent said moves state) (socket : Nat) :
    ∃ moves next, Replays (service.turn (.forward socket))
      (sent ++ service.deliveries (.forward socket)) said moves next := by
  have speaker : state.speakerAt? socket = service.speakerAt? socket := by
    rw [speakerAt?, replays.tasks, Option.bind_map]
    rfl
  rcases service.forward_cases socket with
    ⟨id, listener, message, hub, speaks, polled, turned, _, gave⟩ | ⟨turned, _, gave, _⟩
  · rw [turned, gave]
    have ran : state.run? [.forward socket] = some { state with
        shared := { state.shared with
          hub, taken := Interleaved.extend state.shared.taken id message }
        sent := state.sent ++ [(id, listener.parcel message)] } := by
      refine run?_cons ?_ rfl
      simp only [step?, speaker, speaks, replays.hub, polled, Interleaved.State.step?,
        Option.map_some]
    refine ⟨_, _, replays.append ran replays.idle (Nat.le_succ _), rfl, replays.tasks, ?_,
      replays.said⟩
    exact congrArg (· ++ _) replays.sent
  · rw [turned, gave, List.append_nil]
    exact ⟨moves, state, replays⟩

/-! ## A whole run -/

private theorem Replays.turn (replays : Replays service sent said moves state)
    (steady : service.Steady) (turn : Service.Turn) :
    ∃ moves next, Replays (service.turn turn) (sent ++ service.deliveries turn)
      (said ++ service.occasions turn) moves next := by
  cases turn with
  | arrive timestamp socket arrival =>
    obtain ⟨later, next, taken⟩ := replays.take timestamp arrival steady socket
    refine ⟨later, next, ?_⟩
    rw [deliveries, List.append_nil]
    exact taken
  | forward socket =>
    obtain ⟨later, next, forwarded⟩ := replays.forward socket
    refine ⟨later, next, ?_⟩
    rw [Service.occasions, List.append_nil]
    exact forwarded

/-- What a service does, taking one arrival after the other, is a run of the tasks in which no two
publishes overlap. -/
theorem exists_run_of_play (turns : List Service.Turn) :
    ∃ moves state, Replays (play {} turns) (along deliveries {} turns)
      (along Service.occasions {} turns) moves state := by
  induction turns using List.reverseRecOn with
  | nil => exact ⟨[], {}, oneByOne_nil, rfl, fun _ => rfl, rfl, rfl⟩
  | append_singleton turns turn ih =>
    obtain ⟨moves, state, replays⟩ := ih
    obtain ⟨later, next, turned⟩ := replays.turn (Service.steady_play turns) turn
    refine ⟨later, next, ?_⟩
    rw [Service.play_append, Service.along_append, Service.along_append]
    simpa [along, play] using turned

end Concurrent

end ChatHub
