import ChatHub.Proofs.Hub.Ownership
import ChatHub.Proofs.Hub.Timeline
import Mathlib.Data.List.Find
/-!
A receive with a bound on the wait. Main statement: `bounded_receive`, for whatever the party and
its links did before and whatever is still to come.
-/

set_option autoImplicit false

namespace ChatHub

/-- Whether an event is one that a receiver waits for: another connection publishes, or its own
peer is dropped. -/
def LaterEvent.concerns (id : ConnectionId) : LaterEvent → Bool
  | .publish origin _ => decide (origin ≠ id)
  | .detach other => decide (other = id)

/-- How a wait ends with the event that it was for. -/
def LaterEvent.outcome (timestamp : String) : LaterEvent → Received
  | .publish _ message => .message (message.stamp timestamp)
  | .detach _ => .closed

open Session (occur)

namespace Hub

variable {hub : Hub} {id : ConnectionId} {timestamp : String} {event : LaterEvent}

/-- What a receive finds: what is queued, and only behind that the end of the sending side. -/
theorem poll_fst (isOpen : hub.isOpen id = true) :
    (hub.poll id).1 =
      match hub.queued id with
      | message :: _ => some (.message message)
      | [] => if hub.isAttached id then none else some .closed := by
  rcases hub.poll_cases id with ⟨message, mailbox, rest, found, front, _, polled⟩ | ⟨empty, polled⟩
  · rw [polled, queued, found, Option.map_some, Option.getD_some, front]
  · rw [polled, empty, Option.isNone_eq_false_iff.mpr (isSome_of_isOpen isOpen), Bool.false_or]
    cases hub.isAttached id <;> rfl

/-- Nothing is queued for a connection, and something may still come. -/
structure Awaiting (id : ConnectionId) (hub : Hub) : Prop where
  sound : hub.Sound
  isOpen : hub.isOpen id = true
  attached : hub.isAttached id = true
  empty : hub.queued id = []

theorem Awaiting.poll_fst (awaiting : Awaiting id hub) : (hub.poll id).1 = none := by
  rw [Hub.poll_fst awaiting.isOpen, awaiting.empty, awaiting.attached]
  rfl

/-- A receive has something to return. -/
structure Decided (id : ConnectionId) (outcome : Received) (hub : Hub) : Prop where
  sound : hub.Sound
  isOpen : hub.isOpen id = true
  polled : (hub.poll id).1 = some outcome

/-- What one event leaves behind. -/
theorem occur_one (sound : hub.Sound) (isOpen : hub.isOpen id = true) (timestamp : String)
    (event : LaterEvent) :
    let next := occur timestamp hub [event]
    next.Sound ∧ next.isOpen id = true ∧
      next.queued id =
        hub.queued id ++ (event.recorded timestamp).heardBy id (hub.isAttached id) ∧
      next.isAttached id = (event.recorded timestamp).attaches id (hub.isAttached id) := by
  have step : Step hub (event.recorded timestamp) (occur timestamp hub [event]) := by
    cases event with
    | publish origin message => exact .publish hub origin message timestamp
    | detach other => exact .detach hub other
  have stays : (event.recorded timestamp) ≠ .abandoned id := by
    cases event <;> exact nofun
  have stillOpen := step.isOpen sound stays isOpen
  have queued := step.taken_append_queued sound (isAbandoned_eq_false_of_isOpen stillOpen)
  have nothing : (event.recorded timestamp).takenFrom id = [] := by
    cases event <;> rfl
  rw [nothing, List.nil_append] at queued
  exact ⟨step.sound sound, stillOpen, queued, step.isAttached sound id⟩

private theorem Awaiting.unconcerned (awaiting : Awaiting id hub)
    (apart : event.concerns id = false) (timestamp : String) :
    Awaiting id (occur timestamp hub [event]) := by
  obtain ⟨sound, isOpen, queued, attached⟩ :=
    occur_one awaiting.sound awaiting.isOpen timestamp event
  rw [awaiting.attached, awaiting.empty] at queued
  rw [awaiting.attached] at attached
  refine ⟨sound, isOpen, attached.trans ?_, queued.trans ?_⟩
  · cases event with
    | publish origin message => rfl
    | detach other => simpa [LaterEvent.recorded, Event.attaches, LaterEvent.concerns] using apart
  · cases event with
    | publish origin message =>
      simpa [LaterEvent.recorded, Event.heardBy, LaterEvent.concerns] using apart
    | detach other => rfl

private theorem Awaiting.concerned (awaiting : Awaiting id hub) (its : event.concerns id = true)
    (timestamp : String) :
    Decided id (event.outcome timestamp) (occur timestamp hub [event]) := by
  obtain ⟨sound, isOpen, queued, attached⟩ :=
    occur_one awaiting.sound awaiting.isOpen timestamp event
  rw [awaiting.attached, awaiting.empty] at queued
  rw [awaiting.attached] at attached
  refine ⟨sound, isOpen, ?_⟩
  rw [Hub.poll_fst isOpen, queued, attached]
  cases event with
  | publish origin message =>
    have other : origin ≠ id := of_decide_eq_true its
    simp [LaterEvent.recorded, Event.heardBy, LaterEvent.outcome, other]
  | detach other =>
    have own : other = id := of_decide_eq_true its
    simp [LaterEvent.recorded, Event.heardBy, Event.attaches, LaterEvent.outcome, own]

/-- What a receive would return now it will return later, too. -/
theorem Decided.occur_one {outcome : Received} (decided : Decided id outcome hub)
    (timestamp : String) (event : LaterEvent) :
    Decided id outcome (occur timestamp hub [event]) := by
  obtain ⟨sound, isOpen, queued, attached⟩ :=
    Hub.occur_one decided.sound decided.isOpen timestamp event
  refine ⟨sound, isOpen, ?_⟩
  have polled := decided.polled
  rw [Hub.poll_fst decided.isOpen] at polled
  rw [Hub.poll_fst isOpen, queued, attached]
  cases front : hub.queued id with
  | cons message rest =>
    rw [front] at polled
    exact polled
  | nil =>
    cases gone : hub.isAttached id with
    | true =>
      rw [front, gone] at polled
      cases polled
    | false =>
      rw [front, gone] at polled
      cases event with
      | publish origin message =>
        simpa [LaterEvent.recorded, Event.heardBy, Event.attaches] using polled
      | detach other => simpa [LaterEvent.recorded, Event.heardBy, Event.attaches] using polled

theorem Decided.occur {outcome : Received} (decided : Decided id outcome hub) (timestamp : String)
    (events : List LaterEvent) : Decided id outcome (occur timestamp hub events) := by
  induction events generalizing hub with
  | nil => exact decided
  | cons event rest ih => exact ih (decided.occur_one timestamp event)

private theorem Decided.of_closed (decided : Decided id .closed hub) :
    hub.queued id = [] ∧ hub.isAttached id = false := by
  have polled := decided.polled
  rw [Hub.poll_fst decided.isOpen] at polled
  cases front : hub.queued id with
  | cons message rest =>
    rw [front] at polled
    cases polled
  | nil =>
    rw [front] at polled
    cases attached : hub.isAttached id with
    | true =>
      rw [attached] at polled
      cases polled
    | false => exact ⟨rfl, rfl⟩

/-- The first event that a receiver waits for decides what it returns. -/
theorem Awaiting.occur (awaiting : Awaiting id hub) (timestamp : String)
    (events : List LaterEvent) :
    (events.find? (·.concerns id) = none → Awaiting id (occur timestamp hub events)) ∧
      ∀ event, events.find? (·.concerns id) = some event →
        Decided id (event.outcome timestamp) (Session.occur timestamp hub events) := by
  induction events generalizing hub with
  | nil => exact ⟨fun _ => awaiting, nofun⟩
  | cons event rest ih =>
    have split : Session.occur timestamp hub (event :: rest) =
        Session.occur timestamp (Session.occur timestamp hub [event]) rest := rfl
    rw [split]
    cases its : event.concerns id with
    | false =>
      rw [List.find?_cons_of_neg (by simp [its])]
      exact ih (awaiting.unconcerned its timestamp)
    | true =>
      rw [List.find?_cons_of_pos its]
      refine ⟨nofun, fun first isFirst => ?_⟩
      cases isFirst
      exact (awaiting.concerned its timestamp).occur timestamp rest

end Hub

namespace Session

variable {calendar : Calendar} {session : Session} {id : ConnectionId}

/-- The first event before a deadline that a receiver waits for, and its time. -/
def firstFor (id : ConnectionId) (deadline : Nat) (entries : List (Nat × LaterEvent)) :
    Option (Nat × LaterEvent) :=
  entries.find? fun entry => decide (entry.1 < deadline) && entry.2.concerns id

/-- What a bounded receive from the mailbox of a connection comes to. -/
structure Resolves (calendar : Calendar) (id : ConnectionId) (bound : Nat) (session : Session)
    (outcome : Received) (after : Session) : Prop where
  /-- What is queued is taken at once, even if there is no time or the peer is gone. -/
  queued : ∀ message rest, session.hub.queued id = message :: rest →
    outcome = .message message ∧ after.hub.queued id = rest ∧
      after.agenda = session.agenda ∧ after.ready = session.ready
  gone : session.hub.queued id = [] → session.hub.isAttached id = false →
    outcome = .closed ∧ after.hub = session.hub ∧
      after.agenda = session.agenda ∧ after.ready = session.ready
  waits : session.hub.queued id = [] → session.hub.isAttached id = true →
    let first := firstFor id (session.agenda.now + bound) session.coming
    outcome = (first.map fun entry => entry.2.outcome (calendar entry.1)).getD .timedOut ∧
      after.agenda.now = (first.map Prod.fst).getD (session.agenda.now + bound)
  timedOut : outcome = .timedOut →
    session.hub.queued id = [] ∧ after.hub.queued id = [] ∧ after.hub.isAttached id = true ∧
      after.coming =
        session.coming.filter fun entry => decide (session.agenda.now + bound ≤ entry.1)
  closed : outcome = .closed → after.hub.queued id = [] ∧ after.hub.isAttached id = false

/-! ## Waiting -/

private theorem await_of_decided (calendar : Calendar) {outcome : Received}
    (decided : session.hub.Decided id outcome) (ordered : session.agenda.Ordered)
    (deadline : Nat) :
    let after := session.await calendar (pollMailbox id) deadline
    after.1 = outcome ∧ after.2.agenda.now = session.agenda.now ∧
      (after.1 = .closed → after.2.hub.Decided id .closed) := by
  rcases found : session.pollMailbox id with ⟨polled?, polled⟩
  have same : polled?= some outcome :=
    (congrArg Prod.fst found).symm.trans decided.polled
  have agenda : polled.agenda = session.agenda := (congrArg (·.2.agenda) found).symm
  rw [same] at found
  rw [await_of_found found]
  obtain ⟨hub, settled⟩ := settle_eq calendar (agenda ▸ ordered)
  refine ⟨rfl, by rw [settled, agenda], fun closed => ?_⟩
  cases closed
  have unchanged : polled.hub = session.hub := (congrArg (·.2.hub) found).symm.trans
    (Hub.eq_of_poll_other (Prod.ext decided.polled rfl) (by simp))
  rw [hub, unchanged]
  exact decided.occur _ _

/-- How a wait up to a deadline ends, by what was to come when it began. -/
structure Waited (calendar : Calendar) (id : ConnectionId) (deadline : Nat)
    (entries : List (Nat × LaterEvent)) (outcome : Received) (after : Session) : Prop where
  returns : outcome = ((firstFor id deadline entries).map fun entry =>
    entry.2.outcome (calendar entry.1)).getD .timedOut
  now : after.agenda.now = ((firstFor id deadline entries).map Prod.fst).getD deadline
  inVain : firstFor id deadline entries = none → after.hub.Awaiting id ∧
    after.coming = entries.filter fun entry => decide (deadline ≤ entry.1)
  closed : outcome = .closed → after.hub.Decided id .closed

theorem Waited.congr {deadline : Nat} {entries others : List (Nat × LaterEvent)}
    {outcome : Received} {after : Session}
    (waited : Waited calendar id deadline others outcome after)
    (first : firstFor id deadline entries = firstFor id deadline others)
    (left : entries.filter (fun entry => decide (deadline ≤ entry.1)) =
      others.filter fun entry => decide (deadline ≤ entry.1)) :
    Waited calendar id deadline entries outcome after where
  returns := first ▸ waited.returns
  now := first ▸ waited.now
  inVain nobody := left ▸ waited.inVain (first ▸ nobody)
  closed := waited.closed

private theorem Waited.eq_none {deadline : Nat} {entries : List (Nat × LaterEvent)}
    {outcome : Received}
    {after : Session} (waited : Waited calendar id deadline entries outcome after)
    (timedOut : outcome = .timedOut) : firstFor id deadline entries = none := by
  have returns := waited.returns
  rw [timedOut] at returns
  cases first : firstFor id deadline entries with
  | none => rfl
  | some entry =>
    rw [first] at returns
    cases event : entry.2 <;> simp [LaterEvent.outcome, event] at returns

private theorem Waited.of_late {deadline : Nat} {entries : List (Nat × LaterEvent)}
    (late : ∀ entry ∈ entries, deadline ≤ entry.1) (now : session.agenda.now = deadline)
    (awaiting : session.hub.Awaiting id) (coming : session.coming = entries) :
    Waited calendar id deadline entries .timedOut session := by
  have nobody : firstFor id deadline entries = none :=
    List.find?_eq_none.mpr fun entry member => by simp [Nat.not_lt_of_le (late entry member)]
  have all : entries.filter (fun entry => decide (deadline ≤ entry.1)) = entries :=
    List.filter_eq_self.mpr fun entry member => by simpa using late entry member
  constructor
  · rw [nobody]
    rfl
  · rw [nobody]
    exact now
  · rw [all]
    exact fun _ => ⟨awaiting, coming⟩
  · intro closed
    cases closed

/-- A wait ends with an event that has just decided it. -/
theorem waited_of_decided {deadline time : Nat} {event : LaterEvent}
    {entries : List (Nat × LaterEvent)}
    (first : firstFor id deadline entries = some (time, event))
    (decided : session.hub.Decided id (event.outcome (calendar time)))
    (ordered : session.agenda.Ordered) (now : session.agenda.now = time) :
    Waited calendar id deadline entries (session.await calendar (pollMailbox id) deadline).1
      (session.await calendar (pollMailbox id) deadline).2 := by
  obtain ⟨outcome, still, closed⟩ := await_of_decided calendar decided ordered deadline
  constructor
  · rw [first]
    exact outcome
  · rw [first]
    exact still.trans now
  · intro nobody
    cases first.symm.trans nobody
  · exact closed

private theorem await_waited (calendar : Calendar) {deadline : Nat}
    (ordered : session.agenda.Ordered)
    (unready : session.ready = []) (awaiting : session.hub.Awaiting id)
    (early : session.agenda.now ≤ deadline) :
    Waited calendar id deadline session.agenda.pending
      (session.await calendar (pollMailbox id) deadline).1
      (session.await calendar (pollMailbox id) deadline).2 := by
  -- The induction is along the events that come due before the deadline.
  fun_induction awaitEvents calendar (pollMailbox id) (fun _ => none) deadline session with
  | case1 session outcome polled found =>
    have nothing := awaiting.poll_fst
    rw [show (session.hub.poll id).1 = some outcome from congrArg Prod.fst found] at nothing
    cases nothing
  | case2 session polled found idle =>
    rw [await_of_none (congrArg Prod.fst found) idle]
    refine .of_late (ordered.idle idle) (Nat.max_eq_right early) awaiting ?_
    rw [coming, unready]
    rfl
  | case3 session polled found event agenda due _ ih =>
    obtain ⟨time, isFirst, inTime, now, later⟩ := ordered.next due
    rw [await_of_some (congrArg Prod.fst found) due]
    have hub : (Session.happen calendar { session with agenda } event).hub =
        occur (calendar time) session.hub [event] := by
      rw [happen_hub, now]
    have onAgenda : (Session.happen calendar { session with agenda } event).agenda = agenda :=
      happen_agenda ..
    rw [← onAgenda] at later now
    cases its : event.concerns id with
    | true =>
      have first : firstFor id deadline session.agenda.pending = some (time, event) := by
        rw [firstFor, isFirst, List.find?_cons_of_pos (by simp [inTime, its])]
      exact waited_of_decided first (hub ▸ awaiting.concerned its (calendar time)) later now
    | false =>
      have ready : (Session.happen calendar { session with agenda } event).ready =
          session.ready := by cases event <;> rfl
      have waited := ih later (ready.trans unready) (hub ▸ awaiting.unconcerned its (calendar time))
        (Nat.le_trans (Nat.le_of_eq now) (Nat.le_of_lt inTime))
      rw [onAgenda] at waited
      apply waited.congr
      · rw [firstFor, isFirst, List.find?_cons_of_neg (by simp [its])]
        rfl
      · rw [isFirst, List.filter_cons_of_neg (by simpa using inTime)]

private theorem firstFor_of_early {deadline : Nat} {entries : List (Nat × LaterEvent)}
    (early : ∀ entry ∈ entries, entry.1 < deadline) :
    firstFor id deadline entries = entries.find? fun entry => entry.2.concerns id :=
  List.find?_congr fun entry member => by simp [early entry member]

private theorem awaitFor_of_none (calendar : Calendar) {poll : Session → Option Received × Session}
    (waits : (poll session).1 = none) (bound : Nat) :
    session.awaitFor calendar poll bound =
      if bound = 0 then (.timedOut, session)
      else (session.giveWay calendar).await calendar poll (session.agenda.now + bound) := by
  unfold awaitFor
  split
  · simp_all
  · rfl

/-- Giving way lets happen what is due at once, and a wait goes on with the rest unless it is over
by that. -/
theorem giveWay_awaiting (calendar : Calendar) (ordered : session.agenda.Ordered)
    (awaiting : session.hub.Awaiting id) {deadline : Nat} (early : session.agenda.now < deadline) :
    (session.giveWay calendar).hub.Awaiting id ∧
        firstFor id deadline session.coming =
          firstFor id deadline (session.giveWay calendar).agenda.pending ∧
        session.coming.filter (fun entry => decide (deadline ≤ entry.1)) =
          (session.giveWay calendar).agenda.pending.filter
            (fun entry => decide (deadline ≤ entry.1)) ∨
      ∃ event, firstFor id deadline session.coming = some (session.agenda.now, event) ∧
        (session.giveWay calendar).hub.Decided id
          (event.outcome (calendar session.agenda.now)) := by
  have whole := ordered.scheduleAll session.ready
  obtain ⟨hub, agenda, _⟩ := giveWay_eq calendar ordered
  have arrived : ∀ entry ∈ (session.agenda.scheduleAll session.ready).arrived,
      entry.1 = session.agenda.now := by
    intro entry member
    exact (of_decide_eq_true (List.mem_filter.mp member).2).trans (Agenda.scheduleAll_now ..)
  have onTime : firstFor id deadline (session.agenda.scheduleAll session.ready).arrived = _ :=
    firstFor_of_early fun entry member =>
      Nat.lt_of_le_of_lt (Nat.le_of_eq (arrived entry member)) early
  have parts : session.coming = (session.agenda.scheduleAll session.ready).arrived ++
      (session.giveWay calendar).agenda.pending := by
    rw [agenda]
    exact whole.pending_eq
  -- What is due at once comes first and in time: if any of it is for the mailbox, that decides.
  obtain ⟨quiet, loud⟩ := awaiting.occur (calendar session.agenda.now)
    ((session.agenda.scheduleAll session.ready).arrived.map Prod.snd)
  rw [← hub] at quiet
  simp only [← hub] at loud
  rw [List.find?_map] at quiet loud
  cases isFirst : (session.agenda.scheduleAll session.ready).arrived.find?
      fun entry => entry.2.concerns id with
  | none =>
    refine .inl ⟨quiet (congrArg (Option.map Prod.snd) isFirst), ?_, ?_⟩
    · rw [parts, firstFor, List.find?_append, ← firstFor, onTime, isFirst, Option.none_or]
      rfl
    · have tooEarly : (session.agenda.scheduleAll session.ready).arrived.filter
          (fun entry => decide (deadline ≤ entry.1)) = [] :=
        List.filter_eq_nil_iff.mpr fun entry member => by
          simpa [arrived entry member] using early
      rw [parts, List.filter_append, tooEarly, List.nil_append]
  | some entry =>
    obtain ⟨time, event⟩ := entry
    obtain rfl : time = session.agenda.now := arrived _ (List.mem_of_find?_eq_some isFirst)
    refine .inr ⟨event, ?_, loud event (congrArg (Option.map Prod.snd) isFirst)⟩
    rw [parts, firstFor, List.find?_append, ← firstFor, onTime, isFirst, Option.some_or]

private theorem awaitFor_waited (calendar : Calendar) (ordered : session.agenda.Ordered)
    (awaiting : session.hub.Awaiting id) (bound : Nat) :
    Waited calendar id (session.agenda.now + bound) session.coming
      (session.awaitFor calendar (pollMailbox id) bound).1
      (session.awaitFor calendar (pollMailbox id) bound).2 := by
  have waits : (session.pollMailbox id).1 = none := awaiting.poll_fst
  rw [awaitFor_of_none calendar waits]
  by_cases noTime : bound = 0
  · subst noTime
    refine .of_late ?_ rfl awaiting rfl
    intro entry member
    rw [Nat.add_zero, ← Agenda.scheduleAll_now session.agenda session.ready]
    exact (ordered.scheduleAll session.ready).ahead entry member
  · rw [if_neg noTime]
    obtain ⟨_, agenda, ready⟩ := giveWay_eq calendar ordered
    have gaveWay : (session.giveWay calendar).agenda.Ordered := ordered_giveWay calendar ordered
    have still : (session.giveWay calendar).agenda.now = session.agenda.now := by rw [agenda]
    have early : session.agenda.now < session.agenda.now + bound :=
      Nat.lt_add_of_pos_right (Nat.pos_of_ne_zero noTime)
    rcases giveWay_awaiting calendar ordered awaiting early with
      ⟨awaits, first, left⟩ | ⟨event, first, decided⟩
    · exact (await_waited calendar gaveWay ready awaits
        (still.symm ▸ Nat.le_of_lt early)).congr first left
    · exact waited_of_decided first decided gaveWay still

theorem Waited.resolves {bound : Nat} {outcome : Received} {after : Session}
    (waited : Waited calendar id (session.agenda.now + bound) session.coming outcome after)
    (awaiting : session.hub.Awaiting id) : Resolves calendar id bound session outcome after where
  queued message rest front := by
    cases awaiting.empty.symm.trans front
  gone _ gone := by
    cases awaiting.attached.symm.trans gone
  waits _ _ := ⟨waited.returns, waited.now⟩
  timedOut timedOut := by
    obtain ⟨awaits, left⟩ := waited.inVain (waited.eq_none timedOut)
    exact ⟨awaiting.empty, awaits.empty, awaits.attached, left⟩
  closed closed := (waited.closed closed).of_closed

private theorem awaitFor_of_some {poll : Session → Option Received × Session} {outcome : Received}
    {polled : Session} (found : poll session = (some outcome, polled)) (bound : Nat) :
    session.awaitFor calendar poll bound = (outcome, polled) := by
  rw [awaitFor, found]

private theorem awaitFor_resolves (calendar : Calendar) (ordered : session.agenda.Ordered)
    (sound : session.hub.Sound) (isOpen : session.hub.isOpen id = true) (bound : Nat) :
    Resolves calendar id bound session (session.awaitFor calendar (pollMailbox id) bound).1
      (session.awaitFor calendar (pollMailbox id) bound).2 := by
  have finds := Hub.poll_fst isOpen
  rcases polled : session.hub.poll id with ⟨outcome?, hub⟩
  have found : session.pollMailbox id = (outcome?, { session with hub }) := by
    rw [pollMailbox, polled]
  rw [polled] at finds
  cases front : session.hub.queued id with
  | cons message rest =>
    rw [front] at finds
    cases finds
    have taken := Hub.queued_of_poll polled id
    rw [if_pos rfl, List.singleton_append, front] at taken
    rw [awaitFor_of_some found]
    constructor
    · intro first others isFront
      cases front.symm.trans isFront
      exact ⟨rfl, (List.cons.inj taken).2.symm, rfl, rfl⟩
    · exact fun empty => absurd (front.symm.trans empty) (List.cons_ne_nil _ _)
    · exact fun empty => absurd (front.symm.trans empty) (List.cons_ne_nil _ _)
    · simp
    · simp
  | nil =>
    rw [front] at finds
    cases attached : session.hub.isAttached id with
    | false =>
      rw [attached] at finds
      cases finds
      obtain rfl : hub = session.hub := Hub.eq_of_poll_other polled (by simp)
      rw [awaitFor_of_some found]
      constructor
      · intro message rest isFront
        cases front.symm.trans isFront
      · exact fun _ _ => ⟨rfl, rfl, rfl, rfl⟩
      · intro _ still
        cases attached.symm.trans still
      · simp
      · exact fun _ => ⟨front, attached⟩
    | true =>
      have awaiting : session.hub.Awaiting id := ⟨sound, isOpen, attached, front⟩
      exact (awaitFor_waited calendar ordered awaiting bound).resolves awaiting

/-! ## Steps -/

/-- The mailbox from which a step receives, with the bound on the wait: one that the party holds,
or that of a link. -/
def Step.receives? (session : Session) : Step → Option (ConnectionId × Nat)
  | .receive id bound _ => if id ∈ session.mailboxes then some (id, bound) else none
  | .linkReceive key bound => (session.linkedTo? key).map fun id => (id, bound)
  | _ => none

/-- The session when a step begins to wait, with what the step itself schedules. -/
def Step.scheduling (session : Session) : Step → Session
  | .receive _ _ later => (later.map session.schedule).getD session
  | _ => session

theorem scheduling_eq (session : Session) (step : Step) :
    (step.scheduling session).hub = session.hub ∧
      (step.scheduling session).agenda = session.agenda := by
  cases step with
  | receive id bound later =>
    obtain ⟨hub, agenda, -⟩ := schedule_frame session later
    exact ⟨hub, agenda⟩
  | _ => exact ⟨rfl, rfl⟩

/-- A receive through a link is one from the mailbox of its connection. -/
theorem step_of_receives (calendar : Calendar) {step : Step} {bound : Nat} (owned : session.Owned)
    (receives : step.receives? session = some (id, bound)) :
    session.hub.isOpen id = true ∧
      let waited := (step.scheduling session).unlink.awaitFor calendar (pollMailbox id) bound
      (session.step calendar step).1 = .received waited.1 ∧
        (session.step calendar step).2.unlink = waited.2 := by
  cases step with
  | receive other limit later =>
    simp only [Step.receives?] at receives
    split at receives
    · rename_i held
      cases receives
      refine ⟨owned.mailbox id held, ?_⟩
      simp only [Session.step, Step.scheduling]
      rw [if_pos (by rwa [(schedule_frame session later).2.2])]
      have same := ((mirrors_pollMailbox id).awaitFor calendar bound
        ((later.map session.schedule).getD session) fun _ => rfl).1
      rw [same]
      exact ⟨rfl, rfl⟩
    · cases receives
  | linkReceive key limit =>
    obtain ⟨its, linked, same⟩ := Option.map_eq_some_iff.mp receives
    cases same
    refine ⟨(owned.link linked).1, ?_⟩
    rw [linkedTo?_eq_bind] at linked
    obtain ⟨link, found, connected⟩ := Option.bind_eq_some_iff.mp linked
    cases link with
    | detached line => cases connected
    | attached connection outbox =>
      cases connected
      simp only [Session.step, Step.scheduling, Roster.contains, found, Option.isSome_some, if_true]
      have same := ((mirrors_pollLink found).awaitFor calendar bound session fun _ => rfl).1
      rw [same]
      exact ⟨rfl, rfl⟩
  | _ => cases receives

private theorem Resolves.of_unlink {bound : Nat} {outcome : Received} {after : Session}
    (resolves : Resolves calendar id bound session.unlink outcome after.unlink) :
    Resolves calendar id bound session outcome after :=
  ⟨resolves.queued, resolves.gone, resolves.waits, resolves.timedOut, resolves.closed⟩

private theorem resolves_of_receives (calendar : Calendar) {step : Step} {bound : Nat}
    (owned : session.Owned) (ordered : session.agenda.Ordered)
    (receives : step.receives? session = some (id, bound)) :
    ∃ outcome, (session.step calendar step).1 = .received outcome ∧
      Resolves calendar id bound (step.scheduling session) outcome
        (session.step calendar step).2 := by
  obtain ⟨isOpen, answer, after⟩ := step_of_receives calendar owned receives
  obtain ⟨hub, agenda⟩ := scheduling_eq session step
  refine ⟨_, answer, Resolves.of_unlink ?_⟩
  rw [after]
  refine awaitFor_resolves calendar ?_ ?_ ?_ bound
  · exact agenda ▸ ordered
  · exact hub ▸ owned.sound
  · exact hub ▸ isOpen

/-! ## Behind a receive -/

/-- What is published once nothing is queued is received or queued, in order. -/
theorem heard_of_unqueued (calendar : Calendar) (sound : session.hub.Sound)
    (empty : session.hub.queued id = []) (attached : session.hub.isAttached id = true)
    {more : List Step} (isOpen : (session.last calendar more).hub.isOpen id = true) :
    Hub.heard id true (session.chronicle calendar more) =
      session.received calendar id more ++ (session.last calendar more).hub.queued id := by
  have law := (chronicle_run session more).taken_append_queued sound
    (Hub.isAbandoned_eq_false_of_isOpen isOpen)
  rw [taken_chronicle, empty, attached, List.nil_append] at law
  exact law.symm

private theorem stays_closed (calendar : Calendar) (sound : session.hub.Sound)
    (old : id < session.hub.nextId) (empty : session.hub.queued id = [])
    (gone : session.hub.isAttached id = false) {more : List Step}
    (isOpen : (session.last calendar more).hub.isOpen id = true) :
    (session.last calendar more).hub.queued id = [] ∧
      (session.last calendar more).hub.isAttached id = false := by
  have run : Hub.Run session.hub (session.chronicle calendar more) _ := chronicle_run session more
  have law := run.taken_append_queued sound (Hub.isAbandoned_eq_false_of_isOpen isOpen)
  rw [empty, gone, run.heard_of_gone sound old] at law
  exact ⟨(List.append_eq_nil_iff.mp law).2, run.isAttached_of_gone sound old gone⟩

/-! ## The result -/

/-- Every bounded receive, by the party itself or through a link, in every state that a session
gets to, and whatever is still to come, with or without the event that the step schedules: the law
of `Resolves`, on a timeline that lists everything once, the earliest first. What is published
behind a wait that timed out is received later, nothing lost and nothing out of order. Behind an
end of the sending side there is nothing else to receive. -/
theorem bounded_receive (calendar : Calendar) (steps : List Step) {step : Step}
    {id : ConnectionId} {bound : Nat}
    (receives : step.receives? (last calendar {} steps) = some (id, bound)) :
    let session := last calendar {} steps
    let waiting := step.scheduling session
    let after := (session.step calendar step).2
    (waiting.hub = session.hub ∧ waiting.agenda = session.agenda) ∧
      waiting.coming.Pairwise (fun first second => first.1 ≤ second.1) ∧
      waiting.coming.Perm (waiting.agenda.pending ++
        waiting.ready.map fun task => (waiting.agenda.now + task.1, task.2)) ∧
      ∃ outcome, (session.step calendar step).1 = .received outcome ∧
        Resolves calendar id bound waiting outcome after ∧
        (outcome = .timedOut → ∀ more next limit message rest,
          next.receives? (after.last calendar more) = some (id, limit) →
          Hub.heard id true (after.chronicle calendar more) =
            after.received calendar id more ++ message :: rest →
          ((after.last calendar more).step calendar next).1 = .received (.message message)) ∧
        (outcome = .closed → ∀ more next limit,
          next.receives? (after.last calendar more) = some (id, limit) →
          ((after.last calendar more).step calendar next).1 = .received .closed) := by
  intro session waiting after
  have owned := owned_last calendar steps
  have ordered := ordered_last calendar steps
  have before := scheduling_eq session step
  have whole : (waiting.agenda.scheduleAll waiting.ready).Ordered :=
    Agenda.Ordered.scheduleAll (before.2 ▸ ordered) _
  obtain ⟨outcome, answer, resolves⟩ := resolves_of_receives calendar owned ordered
    receives
  have sound : after.hub.Sound := (owned.step calendar step).sound
  have old : id < after.hub.nextId :=
    Nat.lt_of_lt_of_le
      (Hub.lt_nextId_of_isOpen owned.sound (step_of_receives calendar owned receives).1)
      ((step_run session step).nextId_le owned.sound)
  have further : ∀ more, after.last calendar more = last calendar {} (steps ++ step :: more) := by
    intro more
    rw [last_append, last_cons]
  have resolvesLater : ∀ {more next limit},
      next.receives? (after.last calendar more) = some (id, limit) →
      (after.last calendar more).hub.isOpen id = true ∧
        ∃ outcome, ((after.last calendar more).step calendar next).1 = .received outcome ∧
          Resolves calendar id limit (next.scheduling (after.last calendar more)) outcome
            ((after.last calendar more).step calendar next).2 := by
    intro more next limit again
    rw [further] at again ⊢
    have later := owned_last calendar (steps ++ step :: more)
    exact ⟨(step_of_receives calendar later again).1,
      resolves_of_receives calendar later (ordered_last calendar _) again⟩
  refine ⟨before, whole.sorted, Agenda.scheduleAll_perm _ _, outcome, answer, resolves, ?_, ?_⟩
  · intro timedOut more next limit message rest again heard
    obtain ⟨_, empty, attached, _⟩ := resolves.timedOut timedOut
    obtain ⟨isOpen, outcome, answer, resolves⟩ := resolvesLater again
    have law := heard_of_unqueued calendar sound empty attached isOpen
    have front := List.append_cancel_left (law.symm.trans heard)
    rw [← (scheduling_eq _ next).1] at front
    rw [answer, (resolves.queued message rest front).1]
  · intro closed more next limit again
    obtain ⟨empty, gone⟩ := resolves.closed closed
    obtain ⟨isOpen, outcome, answer, resolves⟩ := resolvesLater again
    obtain ⟨stillEmpty, stillGone⟩ := stays_closed calendar sound old empty gone isOpen
    rw [← (scheduling_eq _ next).1] at stillEmpty stillGone
    rw [answer, (resolves.gone stillEmpty stillGone).1]

/-- A wait that gives up before the message comes, one that gets it, and one that ends when its
own peer is dropped. -/
theorem bounded_receive_thrice :
    let first : Step := .receive 1 5 (some (.publish 8 2 ⟨"bob", "hi"⟩))
    let second : Step := .receive 1 5 none
    let third : Step := .receive 1 9 (some (.dropPeer 4 1))
    let started := last (fun _ => "noon") {} [.attach, .attach]
    let timedOut := last (fun _ => "noon") {} [.attach, .attach, first]
    let taken := last (fun _ => "noon") {} [.attach, .attach, first, second]
    first.receives? started = some (1, 5) ∧ second.receives? timedOut = some (1, 5) ∧
      third.receives? taken = some (1, 9) ∧
      ((started.step (fun _ => "noon") first).1 = .received .timedOut ∧
        timedOut.agenda.now = 5) ∧
      ((timedOut.step (fun _ => "noon") second).1 = .received (.message ⟨"bob", "hi", "noon"⟩) ∧
        taken.agenda.now = 8) ∧
      (taken.step (fun _ => "noon") third).1 = .received .closed ∧
      (taken.step (fun _ => "noon") third).2.agenda.now = 12 := by
  intro first second third started timedOut taken
  have receives : first.receives? started = some (1, 5) := by decide +kernel
  have again : second.receives? timedOut = some (1, 5) := by decide +kernel
  have once : third.receives? taken = some (1, 9) := by decide +kernel
  obtain ⟨_, _, _, _, answer, resolves, _⟩ :=
    bounded_receive (fun _ => "noon") [.attach, .attach] receives
  obtain ⟨_, _, _, _, answer', resolves', _⟩ :=
    bounded_receive (fun _ => "noon") [.attach, .attach, first] again
  obtain ⟨_, _, _, _, answer'', resolves'', _⟩ :=
    bounded_receive (fun _ => "noon") [.attach, .attach, first, second] once
  have early := resolves.waits (by decide +kernel) (by decide +kernel)
  have late := resolves'.waits (by decide +kernel) (by decide +kernel)
  have gone := resolves''.waits (by decide +kernel) (by decide +kernel)
  refine ⟨receives, again, once, ⟨?_, ?_⟩, ⟨?_, ?_⟩, ?_, ?_⟩
  · rw [answer, early.1]
    decide +kernel
  · exact early.2.trans (by decide +kernel)
  · rw [answer', late.1]
    decide +kernel
  · exact late.2.trans (by decide +kernel)
  · rw [answer'', gone.1]
    decide +kernel
  · exact gone.2.trans (by decide +kernel)

end Session

end ChatHub
