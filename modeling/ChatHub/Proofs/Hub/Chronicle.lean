import ChatHub.Hub.Session
import ChatHub.Proofs.Hub.History
/-!
What a session's steps do to its hub, as a history: the operations asked for directly, those of
links and their pumps, and those that were scheduled earlier and come due while a step waits. Main
statement: `stream_eq_heard`, the delivery law of whole runs.
-/

set_option autoImplicit false

namespace ChatHub

/-- The event that a scheduled operation is when it happens. -/
def LaterEvent.recorded (timestamp : String) : LaterEvent → Hub.Event
  | .publish origin message => .published origin (message.stamp timestamp)
  | .detach id => .detached id

/-- The message that a wait ended with. -/
def Received.messages : Received → List Stamped
  | .message received => [received]
  | .timedOut | .closed => []

namespace Session

variable (calendar : Calendar)

/-! ## The chronicle of a step -/

/-- The chronicle of `runUntil`. -/
def runUntilEvents (moment : Nat) (session : Session) : List Hub.Event :=
  match next : session.agenda.nextBefore? moment with
  | none => []
  | some (event, agenda) =>
    have := Agenda.nextBefore?_length next
    event.recorded (calendar agenda.now) ::
      runUntilEvents moment ({ session with agenda }.happen calendar event)
termination_by session.agenda.pending.length
decreasing_by cases event <;> simpa [happen] using this

/-- The chronicle of starting tasks in order. -/
def startEvents (session : Session) : List (Nat × LaterEvent) → List Hub.Event
  | [] => []
  | task :: rest =>
    (if task.1 = 0 then [task.2.recorded (calendar session.agenda.now)] else []) ++
      startEvents (session.start calendar task) rest

/-- The chronicle of `giveWay`. -/
def giveWayEvents (session : Session) : List Hub.Event :=
  let settled := session.settle calendar
  session.runUntilEvents calendar (session.agenda.now + 1) ++
    startEvents calendar { settled with ready := [] } settled.ready

/-- The chronicle of a receive with that outcome, on the mailbox of a connection or on one that no
hub fills. -/
def receiveEvents (source : Option ConnectionId) (outcome : Received) : List Hub.Event :=
  match source, outcome with
  | some id, .message message => [.took id [message]]
  | _, _ => []

/-- The chronicle of `await`, for a poll on the mailbox that `source` names. -/
def awaitEvents (poll : Session → Option Received × Session)
    (source : Session → Option ConnectionId) (deadline : Nat) (session : Session) :
    List Hub.Event :=
  match poll session with
  | (some outcome, polled) =>
    receiveEvents (source session) outcome ++
      polled.runUntilEvents calendar (polled.agenda.now + 1)
  | (none, _) =>
    match next : session.agenda.nextBefore? deadline with
    | none => []
    | some (event, agenda) =>
      have := Agenda.nextBefore?_length next
      event.recorded (calendar agenda.now) ::
        awaitEvents poll source deadline ({ session with agenda }.happen calendar event)
termination_by session.agenda.pending.length
decreasing_by cases event <;> simpa [happen] using this

/-- The chronicle of `awaitFor`. -/
def awaitForEvents (poll : Session → Option Received × Session)
    (source : Session → Option ConnectionId) (bound : Nat) (session : Session) :
    List Hub.Event :=
  match poll session with
  | (some outcome, _) => receiveEvents (source session) outcome
  | (none, _) =>
    if bound = 0 then []
    else
      session.giveWayEvents calendar ++
        (session.giveWay calendar).awaitEvents calendar poll source (session.agenda.now + bound)

/-- The connection behind a link. -/
def linkedTo? (key : Nat) (session : Session) : Option ConnectionId :=
  match session.links.get? key with
  | some (.attached connection _) => some connection
  | _ => none

/-- The chronicle of `dropLink`. -/
def dropLinkEvents (session : Session) (key : Nat) : List Hub.Event :=
  ((session.linkedTo? key).map Hub.Event.abandoned).toList

/-- The chronicle of one step. -/
def stepEvents (session : Session) : Step → List Hub.Event
  | .attach => [.attached session.hub.nextId]
  | .publish id message =>
    if id ∈ session.peers then [.published id (message.stamp (calendar session.agenda.now))]
    else []
  | .publishAs origin message => [.published origin (message.stamp (calendar session.agenda.now))]
  | .dropPeer id => if id ∈ session.peers then [.detached id] else []
  | .dropMailbox id => if id ∈ session.mailboxes then [.abandoned id] else []
  | .isAttached _ => []
  | .tryReceive id =>
    if id ∈ session.mailboxes then
      match (session.hub.poll id).1 with
      | some outcome => receiveEvents (some id) outcome
      | none => []
    else []
  | .drain id => if id ∈ session.mailboxes then [.took id (session.hub.queued id)] else []
  | .receive id bound later =>
    let session := (later.map session.schedule).getD session
    if id ∈ session.mailboxes then
      session.awaitForEvents calendar (pollMailbox id) (fun _ => some id) bound
    else []
  | .link key =>
    let (link, hub) := Link.connect session.hub
    let linked := { session with hub }
    .attached session.hub.nextId ::
      (linked.dropLinkEvents key ++ (linked.putLink key link).giveWayEvents calendar)
  | .deadLink key => session.dropLinkEvents key
  | .linkSend key message =>
    match session.links.get? key with
    | none => []
    | some link =>
      let session' := session.giveWay calendar
      session.giveWayEvents calendar ++
        match link.send? message with
        | some (.attached connection outbox) =>
          outbox.toList.map fun sent =>
            .published connection (sent.stamp (calendar session'.agenda.now))
        | _ => []
  | .linkReceive key bound =>
    if session.links.contains key then
      session.awaitForEvents calendar (pollLink key) (linkedTo? key) bound
    else []
  | .linkDrop key =>
    session.dropLinkEvents key ++ (session.dropLink key).giveWayEvents calendar

/-! ## The chronicle is a history of the hub -/

section Runs

variable {calendar}

theorem happen_run (session : Session) (event : LaterEvent) :
    Hub.Step session.hub (event.recorded (calendar session.agenda.now))
      (session.happen calendar event).hub := by
  cases event with
  | publish origin message => exact .publish session.hub origin message _
  | detach id => exact .detach session.hub id

private theorem runUntil_run (moment : Nat) (session : Session) :
    Hub.Run session.hub (session.runUntilEvents calendar moment)
      (session.runUntil calendar moment).hub := by
  fun_induction runUntilEvents calendar moment session with
  | case1 session idle =>
    rw [runUntil_of_none idle]
    exact .nil
  | case2 session event agenda due _ ih =>
    rw [runUntil_of_some due]
    exact .cons (happen_run { session with agenda } event) ih

private theorem start_run (tasks : List (Nat × LaterEvent)) (session : Session) :
    Hub.Run session.hub (startEvents calendar session tasks)
      (tasks.foldl (start calendar) session).hub := by
  induction tasks generalizing session with
  | nil => exact .nil
  | cons task rest ih =>
    refine Trace.append ?_ (ih (session.start calendar task))
    unfold start
    split
    · exact (happen_run session task.2).run
    · exact .nil

private theorem giveWay_run (session : Session) :
    Hub.Run session.hub (session.giveWayEvents calendar) (session.giveWay calendar).hub :=
  (runUntil_run (session.agenda.now + 1) session).append
    (start_run _ { session.settle calendar with ready := [] })

/-- A poll that finds something takes it from the mailbox that `source` names. -/
private def Takes (poll : Session → Option Received × Session)
    (source : Session → Option ConnectionId) : Prop :=
  ∀ (session polled : Session) (outcome : Received), poll session = (some outcome, polled) →
    Hub.Run session.hub (receiveEvents (source session) outcome) polled.hub

private theorem await_run {poll : Session → Option Received × Session}
    {source : Session → Option ConnectionId} (takes : Takes poll source) (deadline : Nat)
    (session : Session) :
    Hub.Run session.hub (session.awaitEvents calendar poll source deadline)
      (session.await calendar poll deadline).2.hub := by
  fun_induction awaitEvents calendar poll source deadline session with
  | case1 session outcome polled found =>
    rw [await_of_found found]
    exact (takes session polled outcome found).append (runUntil_run _ polled)
  | case2 session polled found idle =>
    rw [await_of_none (congrArg Prod.fst found) idle]
    exact .nil
  | case3 session polled found event agenda due _ ih =>
    rw [await_of_some (congrArg Prod.fst found) due]
    exact .cons (happen_run { session with agenda } event) ih

private theorem awaitFor_run {poll : Session → Option Received × Session}
    {source : Session → Option ConnectionId} (takes : Takes poll source) (bound : Nat)
    (session : Session) :
    Hub.Run session.hub (session.awaitForEvents calendar poll source bound)
      (session.awaitFor calendar poll bound).2.hub := by
  unfold awaitForEvents awaitFor
  match found : poll session with
  | (some outcome, polled) => exact takes session polled outcome found
  | (none, _) =>
    by_cases noTime : bound = 0
    · simp only [noTime, if_true]
      exact .nil
    · simp only [noTime, if_false]
      exact (giveWay_run session).append (await_run takes _ _)

private theorem pollMailbox_takes (id : ConnectionId) :
    Takes (pollMailbox id) fun _ => some id := by
  intro session polled outcome found
  unfold pollMailbox at found
  match polledHub : session.hub.poll id with
  | (outcome', hub) =>
    simp only [polledHub, Prod.mk.injEq] at found
    obtain ⟨rfl, rfl⟩ := found
    cases outcome with
    | message message => exact (Hub.Step.poll polledHub).run
    | timedOut | closed =>
      rw [show hub = session.hub from Hub.eq_of_poll_other polledHub (by simp)]
      exact .nil

private theorem pollLink_takes (key : Nat) : Takes (pollLink key) (linkedTo? key) := by
  intro session polled outcome found
  unfold pollLink at found
  unfold linkedTo?
  cases held : session.links.get? key with
  | none =>
    simp only [held, Prod.mk.injEq, Option.some.injEq] at found
    obtain ⟨rfl, rfl⟩ := found
    exact .nil
  | some link =>
    cases link with
    | detached line =>
      simp only [held, Link.poll, Prod.mk.injEq] at found
      rw [← found.2]
      exact .nil
    | attached connection outbox =>
      match polledHub : session.hub.poll connection with
      | (outcome', hub) =>
        simp only [held, Link.poll, polledHub, Prod.mk.injEq] at found
        obtain ⟨rfl, rfl⟩ := found
        exact pollMailbox_takes connection session { session with hub } outcome
          (by simp only [pollMailbox, polledHub])

private theorem publishAll_run (origin : ConnectionId) (timestamp : String)
    (messages : List Inbound) (hub : Hub) :
    Hub.Run hub (messages.map fun message => .published origin (message.stamp timestamp))
      (messages.foldl (fun hub message => (hub.publish origin message timestamp).2) hub) := by
  induction messages generalizing hub with
  | nil => exact .nil
  | cons message rest ih => exact .cons (.publish hub origin message timestamp) (ih _)

theorem dropLink_run (session : Session) (key : Nat) :
    Hub.Run session.hub (session.dropLinkEvents key) (session.dropLink key).hub := by
  unfold dropLinkEvents dropLink linkedTo?
  cases held : session.links.get? key with
  | none => exact .nil
  | some link =>
    cases link with
    | attached connection outbox => exact (Hub.Step.dropMailbox session.hub connection).run
    | detached line => exact .nil

/-- To schedule something only puts it where it waits for its turn. -/
theorem schedule_frame (session : Session) (later : Option Later) :
    let scheduled := (later.map session.schedule).getD session
    scheduled.hub = session.hub ∧ scheduled.agenda = session.agenda ∧
      scheduled.mailboxes = session.mailboxes := by
  cases later with
  | none => exact ⟨rfl, rfl, rfl⟩
  | some later =>
    cases later with
    | publish delay origin message => exact ⟨rfl, rfl, rfl⟩
    | dropPeer delay id =>
      simp only [Option.map_some, Option.getD_some, schedule]
      split <;> exact ⟨rfl, rfl, rfl⟩

/-- Every step is a run of the hub, and its chronicle the history of it. -/
theorem step_run (session : Session) (step : Step) :
    Hub.Run session.hub (session.stepEvents calendar step) (session.step calendar step).2.hub := by
  cases step with
  | attach => exact (Hub.Step.attach session.hub).run
  | publish id message =>
    simp only [stepEvents, Session.step]
    split
    · exact (Hub.Step.publish session.hub id message _).run
    · exact .nil
  | publishAs origin message => exact (Hub.Step.publish session.hub origin message _).run
  | dropPeer id =>
    simp only [stepEvents, Session.step]
    split
    · exact (Hub.Step.detach session.hub id).run
    · exact .nil
  | dropMailbox id =>
    simp only [stepEvents, Session.step]
    split
    · exact (Hub.Step.dropMailbox session.hub id).run
    · exact .nil
  | isAttached id => exact .nil
  | tryReceive id =>
    simp only [stepEvents, Session.step]
    split
    · rcases polled : session.hub.poll id with ⟨_ | _ | _ | _, hub⟩
      case some.message => exact (Hub.Step.poll polled).run
      all_goals
        have same : hub = session.hub := Hub.eq_of_poll_other polled (by simp)
        exact same ▸ .nil
    · exact .nil
  | drain id =>
    simp only [stepEvents, Session.step]
    split
    · exact (Hub.Step.drain session.hub id).run
    · exact .nil
  | receive id bound later =>
    simp only [stepEvents, Session.step]
    rw [← (schedule_frame session later).1]
    split
    · exact awaitFor_run (pollMailbox_takes id) bound _
    · exact .nil
  | link key =>
    refine .cons (Hub.Step.attach session.hub) ?_
    exact (dropLink_run { session with hub := session.hub.attach.2 } key).append
      (giveWay_run (Session.putLink { session with hub := session.hub.attach.2 } key _))
  | deadLink key => exact dropLink_run session key
  | linkSend key message =>
    simp only [stepEvents, Session.step]
    cases session.links.get? key with
    | none => exact .nil
    | some link =>
      cases link with
      | attached connection outbox =>
        exact (giveWay_run session).append (publishAll_run connection _ _ _)
      | detached line =>
        have alone : Hub.Run session.hub (session.giveWayEvents calendar)
            (session.giveWay calendar).hub := giveWay_run session
        by_cases accepts : line.accepts = true <;>
          simpa [Link.send?, Link.pump, accepts] using alone
  | linkReceive key bound =>
    simp only [stepEvents, Session.step]
    split
    · exact awaitFor_run (pollLink_takes key) bound session
    · exact .nil
  | linkDrop key =>
    exact (dropLink_run session key).append (giveWay_run (session.dropLink key))

end Runs

/-! ## What a step's answer says about the messages taken -/

/-- The messages that a step took out of the mailbox of a connection, as its answer tells. A link
is the owner of its connection's mailbox. -/
def Step.takes (id : ConnectionId) (session : Session) : Step → Answer → List Stamped
  | .tryReceive other, .taken message => if other = id then message.toList else []
  | .drain other, .drained messages => if other = id then messages else []
  | .receive other _ _, .received outcome => if other = id then outcome.messages else []
  | .linkReceive key _, .received outcome =>
    if session.linkedTo? key = some id then outcome.messages else []
  | _, _ => []

section Takes

variable {calendar} {id : ConnectionId}

@[simp] private theorem takenFrom_recorded (event : LaterEvent) (timestamp : String) :
    (event.recorded timestamp).takenFrom id = [] := by
  cases event <;> rfl

private theorem taken_runUntilEvents (moment : Nat) (session : Session) :
    Hub.taken id (session.runUntilEvents calendar moment) = [] := by
  fun_induction runUntilEvents calendar moment session with
  | case1 => rfl
  | case2 session event agenda due _ ih => simpa [Hub.taken] using ih

private theorem taken_startEvents (tasks : List (Nat × LaterEvent)) (session : Session) :
    Hub.taken id (startEvents calendar session tasks) = [] := by
  induction tasks generalizing session with
  | nil => rfl
  | cons task rest ih =>
    rw [startEvents, Hub.taken_append, ih, List.append_nil]
    split
    · simp [Hub.taken]
    · rfl

private theorem taken_giveWayEvents (session : Session) :
    Hub.taken id (session.giveWayEvents calendar) = [] := by
  simp only [giveWayEvents, Hub.taken_append, taken_runUntilEvents, taken_startEvents,
    List.append_nil]

private theorem taken_receiveEvents (source : Option ConnectionId) (outcome : Received) :
    Hub.taken id (receiveEvents source outcome) =
      if source = some id then outcome.messages else [] := by
  cases source <;> cases outcome <;> simp [receiveEvents, Hub.taken, Hub.Event.takenFrom,
    Received.messages]

private theorem happen_links (session : Session) (event : LaterEvent) :
    (session.happen calendar event).links = session.links := by
  cases event <;> rfl

theorem runUntil_links (moment : Nat) (session : Session) :
    (session.runUntil calendar moment).links = session.links := by
  fun_induction runUntilEvents calendar moment session with
  | case1 session idle => rw [runUntil_of_none idle]
  | case2 session event agenda due _ ih => rw [runUntil_of_some due, ih, happen_links]

private theorem foldl_start_links (tasks : List (Nat × LaterEvent)) (session : Session) :
    (tasks.foldl (start calendar) session).links = session.links := by
  induction tasks generalizing session with
  | nil => rfl
  | cons task rest ih =>
    rw [List.foldl_cons, ih, start]
    split
    · exact happen_links session task.2
    · rfl

theorem giveWay_links (session : Session) :
    (session.giveWay calendar).links = session.links := by
  unfold giveWay
  exact (foldl_start_links _ _).trans (runUntil_links _ session)

/-- What a wait takes is the message it ends with; whatever else happens meanwhile takes
nothing. -/
private theorem taken_awaitEvents {poll : Session → Option Received × Session}
    {source : Session → Option ConnectionId}
    (stable : ∀ before after : Session, before.links = after.links → source before = source after)
    (deadline : Nat) (session : Session) :
    Hub.taken id (session.awaitEvents calendar poll source deadline) =
      if source session = some id then (session.await calendar poll deadline).1.messages
      else [] := by
  fun_induction awaitEvents calendar poll source deadline session with
  | case1 session outcome polled found =>
    rw [await_of_found found, Hub.taken_append, taken_receiveEvents, taken_runUntilEvents,
      List.append_nil]
  | case2 session polled found idle =>
    rw [await_of_none (congrArg Prod.fst found) idle]
    simp [Hub.taken, Received.messages]
  | case3 session polled found event agenda due _ ih =>
    rw [await_of_some (congrArg Prod.fst found) due]
    have unmoved := stable ({ session with agenda }.happen calendar event) session
      (happen_links _ event)
    rw [unmoved] at ih
    simpa [Hub.taken] using ih

private theorem taken_awaitForEvents {poll : Session → Option Received × Session}
    {source : Session → Option ConnectionId}
    (stable : ∀ before after : Session, before.links = after.links → source before = source after)
    (bound : Nat) (session : Session) :
    Hub.taken id (session.awaitForEvents calendar poll source bound) =
      if source session = some id then (session.awaitFor calendar poll bound).1.messages
      else [] := by
  unfold awaitForEvents awaitFor
  match poll session with
  | (some outcome, polled) => exact taken_receiveEvents (source session) outcome
  | (none, _) =>
    by_cases noTime : bound = 0
    · simp [noTime, Hub.taken, Received.messages]
    · simp only [noTime, if_false, Hub.taken_append, taken_giveWayEvents, List.nil_append]
      rw [taken_awaitEvents stable, stable _ session (giveWay_links session)]

private theorem linkedTo?_stable (key : Nat) (before after : Session)
    (same : before.links = after.links) : linkedTo? key before = linkedTo? key after := by
  unfold linkedTo?
  rw [same]

private theorem taken_dropLinkEvents (session : Session) (key : Nat) :
    Hub.taken id (session.dropLinkEvents key) = [] := by
  unfold dropLinkEvents
  cases session.linkedTo? key <;> simp [Hub.taken, Hub.Event.takenFrom]

private theorem taken_published (origin : ConnectionId) (timestamp : String)
    (messages : List Inbound) :
    Hub.taken id (messages.map fun message =>
      .published origin (message.stamp timestamp)) = [] := by
  simp [Hub.taken, Hub.Event.takenFrom]

/-- A step's answer tells exactly the messages that its chronicle says were taken. -/
theorem taken_stepEvents (session : Session) (step : Step) :
    Hub.taken id (session.stepEvents calendar step) =
      step.takes id session (session.step calendar step).1 := by
  cases step with
  | attach | publishAs | isAttached => rfl
  | publish other message =>
    simp only [stepEvents, Session.step]
    split <;> rfl
  | dropPeer other =>
    simp only [stepEvents, Session.step]
    split <;> rfl
  | dropMailbox other =>
    simp only [stepEvents, Session.step]
    split <;> rfl
  | tryReceive other =>
    simp only [stepEvents, Session.step]
    split
    · rcases session.hub.poll other with ⟨_ | _ | _ | _, hub⟩
      case some.message => simp [taken_receiveEvents, Step.takes, Received.messages]
      all_goals simp [receiveEvents, Hub.taken, Step.takes]
    · rfl
  | drain other =>
    simp only [stepEvents, Session.step]
    split
    · simp [Hub.taken, Hub.Event.takenFrom, Step.takes, Hub.drain]
    · rfl
  | receive other bound later =>
    simp only [stepEvents, Session.step]
    split
    · simp [taken_awaitForEvents, Step.takes]
    · rfl
  | link key =>
    simp only [stepEvents, Session.step]
    rw [← List.singleton_append, Hub.taken_append, Hub.taken_append, taken_dropLinkEvents,
      taken_giveWayEvents]
    rfl
  | deadLink key => exact taken_dropLinkEvents session key
  | linkSend key message =>
    simp only [stepEvents, Session.step]
    cases session.links.get? key with
    | none => rfl
    | some link =>
      cases link with
      | attached connection outbox =>
        simp only [Link.send?, Hub.taken_append, taken_giveWayEvents, taken_published]
        rfl
      | detached line =>
        by_cases accepts : line.accepts = true <;>
          simp [Link.send?, accepts, taken_giveWayEvents, Step.takes]
  | linkReceive key bound =>
    simp only [stepEvents, Session.step]
    split
    · rw [taken_awaitForEvents (linkedTo?_stable key)]
      rfl
    · rfl
  | linkDrop key =>
    simp only [stepEvents, Session.step]
    rw [Hub.taken_append, taken_dropLinkEvents, taken_giveWayEvents]
    rfl

end Takes

/-! ## Whole runs -/

/-- The session behind the last of some steps. -/
def last (session : Session) (steps : List Step) : Session :=
  ((session.run calendar steps).map Prod.snd).getLastD session

/-- The chronicle of steps in order. -/
def chronicle (session : Session) : List Step → List Hub.Event
  | [] => []
  | step :: rest =>
    session.stepEvents calendar step ++ chronicle (session.step calendar step).2 rest

/-- The messages taken out of the mailbox of a connection, as the answers tell, oldest first. -/
def received (id : ConnectionId) (session : Session) : List Step → List Stamped
  | [] => []
  | step :: rest =>
    let (answer, next) := session.step calendar step
    step.takes id session answer ++ received id next rest

/-- The sequence of a mailbox: what has been taken out of it, and behind that what is in it. -/
def stream (id : ConnectionId) (session : Session) (steps : List Step) : List Stamped :=
  session.received calendar id steps ++ (session.last calendar steps).hub.queued id

section Whole

variable {calendar}

@[simp] theorem last_nil (session : Session) : session.last calendar [] = session :=
  rfl

@[simp] theorem last_cons (session : Session) (step : Step) (rest : List Step) :
    session.last calendar (step :: rest) = (session.step calendar step).2.last calendar rest := by
  simp only [last, run, List.map_cons, List.getLastD_cons]

theorem last_append (session : Session) (earlier later : List Step) :
    session.last calendar (earlier ++ later) =
      (session.last calendar earlier).last calendar later := by
  induction earlier generalizing session with
  | nil => rfl
  | cons step rest ih => rw [List.cons_append, last_cons, last_cons, ih]

private theorem received_append (id : ConnectionId) (session : Session)
    (earlier later : List Step) :
    session.received calendar id (earlier ++ later) =
      session.received calendar id earlier ++
        (session.last calendar earlier).received calendar id later := by
  induction earlier generalizing session with
  | nil => rfl
  | cons step rest ih =>
    simp only [List.cons_append, received, last_cons, ih, List.append_assoc]

theorem taken_chronicle (id : ConnectionId) (session : Session) (steps : List Step) :
    Hub.taken id (session.chronicle calendar steps) = session.received calendar id steps := by
  induction steps generalizing session with
  | nil => rfl
  | cons step rest ih => rw [chronicle, Hub.taken_append, taken_stepEvents, ih, received]

/-- The chronicle of a run is a history of its hub. -/
theorem chronicle_run (session : Session) (steps : List Step) :
    Hub.Run session.hub (session.chronicle calendar steps) (session.last calendar steps).hub := by
  induction steps generalizing session with
  | nil => exact .nil
  | cons step rest ih =>
    rw [last_cons]
    exact (step_run session step).append (ih (session.step calendar step).2)

private theorem sound_last (steps : List Step) : (last calendar {} steps).hub.Sound :=
  (chronicle_run {} steps).sound Hub.sound_empty

/-- Further steps add to the sequence of a mailbox what its connection hears of them. -/
theorem stream_append {session : Session} {earlier later : List Step} {id : ConnectionId}
    (sound : (session.last calendar earlier).hub.Sound)
    (isHeld : (session.last calendar (earlier ++ later)).hub.isOpen id = true) :
    session.stream calendar id (earlier ++ later) =
      session.stream calendar id earlier ++
        Hub.heard id ((session.last calendar earlier).hub.isAttached id)
          ((session.last calendar earlier).chronicle calendar later) := by
  rw [last_append] at isHeld
  have law := (chronicle_run (session.last calendar earlier) later).taken_append_queued sound
    (Hub.isAbandoned_eq_false_of_isOpen isHeld)
  rw [taken_chronicle] at law
  simp only [stream, received_append, last_append, List.append_assoc, law]

/-- The chronicle of every run is a history of its hub. By it, the messages taken out of a mailbox
that has an owner and those still in it are exactly the messages that others published while its
connection was attached, in the order of publishing. Nothing published under its own id is among
them, and steps during which no other connection publishes leave the sequence as it was. -/
theorem stream_eq_heard (calendar : Calendar) (steps : List Step) (id : ConnectionId)
    (isHeld : (last calendar {} steps).hub.isOpen id = true) :
    Hub.Run {} (chronicle calendar {} steps) (last calendar {} steps).hub ∧
      stream calendar id {} steps = Hub.heard id false (chronicle calendar {} steps) ∧
      (∀ message ∈ stream calendar id {} steps,
        ∃ origin, origin ≠ id ∧ .published origin message ∈ chronicle calendar {} steps) ∧
      ∀ earlier later, steps = earlier ++ later →
        (∀ origin message, origin ≠ id →
          .published origin message ∉ chronicle calendar (last calendar {} earlier) later) →
        stream calendar id {} steps = stream calendar id {} earlier := by
  have law : stream calendar id {} steps = Hub.heard id false (chronicle calendar {} steps) :=
    @stream_append calendar {} [] steps id Hub.sound_empty isHeld
  refine ⟨chronicle_run {} steps, law, fun message member => ?_, ?_⟩
  · rw [law] at member
    exact Hub.published_of_mem_heard member
  · rintro earlier later rfl silent
    rw [stream_append (sound_last earlier) isHeld, Hub.heard_eq_nil silent, List.append_nil]

/-- Two messages from others reach the second connection, one under an id that is not attached;
its own and the one behind its detaching do not. -/
theorem stream_eq_heard_second :
    let steps : List Step := [.attach, .attach, .publish 1 ⟨"ann", "hello"⟩, .receive 2 5 none,
      .publish 2 ⟨"bob", "hi"⟩, .publishAs 7 ⟨"eve", "psst"⟩, .dropPeer 2,
      .publish 1 ⟨"ann", "bye"⟩]
    (last (fun _ => "noon") {} steps).hub.isOpen 2 = true ∧
      stream (fun _ => "noon") 2 {} steps =
        [⟨"ann", "hello", "noon"⟩, ⟨"eve", "psst", "noon"⟩] := by
  intro steps
  have isHeld : (last (fun _ => "noon") {} steps).hub.isOpen 2 = true := by decide
  exact ⟨isHeld, (stream_eq_heard (fun _ => "noon") steps 2 isHeld).2.1.trans (by decide)⟩

end Whole

end Session

end ChatHub
