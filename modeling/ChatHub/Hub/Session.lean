import ChatHub.Clock
import ChatHub.Hub.Link
import ChatHub.Roster
/-!
One party that owns peers, mailboxes and links of a hub and uses them step by step on a virtual
clock. Waiting is the only thing that takes time. Nothing else runs until the party gives way: when
it has to wait, and at each step that has to do with a link, other than to put a dead one into
place.
-/

set_option autoImplicit false

namespace ChatHub

inductive LaterEvent where
  | publish (origin : ConnectionId) (message : Inbound)
  | detach (id : ConnectionId)
  deriving DecidableEq, Repr

inductive Later where
  | publish (delay : Nat) (origin : ConnectionId) (message : Inbound)
  | dropPeer (delay : Nat) (id : ConnectionId)
  deriving DecidableEq, Repr

/-- The text of the server's clock at each moment. -/
abbrev Calendar := Nat → String

/-- A hub, the clock, and which ends are still owned. Links have keys of their own. What is ready
to run has not had its turn yet; its delay begins then. -/
structure Session where
  hub : Hub := {}
  agenda : Agenda LaterEvent := {}
  ready : List (Nat × LaterEvent) := []
  peers : List ConnectionId := []
  mailboxes : List ConnectionId := []
  links : Roster Nat Link := {}
  deriving Inhabited

namespace Session

inductive Step where
  | attach
  | publish (id : ConnectionId) (message : Inbound)
  | publishAs (origin : ConnectionId) (message : Inbound)
  | dropPeer (id : ConnectionId)
  | dropMailbox (id : ConnectionId)
  | isAttached (id : ConnectionId)
  | tryReceive (id : ConnectionId)
  | drain (id : ConnectionId)
  | receive (id : ConnectionId) (bound : Nat) (later : Option Later)
  | link (key : Nat)
  | deadLink (key : Nat)
  | linkSend (key : Nat) (message : Inbound)
  | linkReceive (key : Nat) (bound : Nat)
  | linkDrop (key : Nat)
  deriving DecidableEq, Repr

/-- What a step answers. `missing` stands for an end that is not owned. -/
inductive Answer where
  | done
  | missing
  | attached (id : ConnectionId)
  | report (report : DeliveryReport)
  | holds (value : Bool)
  | taken (message : Option Stamped)
  | drained (messages : List Stamped)
  | received (outcome : Received)
  | linkClosed
  deriving DecidableEq, Repr

def happen (calendar : Calendar) (session : Session) : LaterEvent → Session
  | .publish origin message =>
    { session with
      hub := (session.hub.publish origin message (calendar session.agenda.now)).2 }
  | .detach id => { session with hub := session.hub.detach id }

def runUntil (calendar : Calendar) (moment : Nat) (session : Session) : Session :=
  match next : session.agenda.nextBefore? moment with
  | none => session
  | some (event, agenda) =>
    have := Agenda.nextBefore?_length next
    runUntil calendar moment ({ session with agenda }.happen calendar event)
termination_by session.agenda.pending.length
decreasing_by cases event <;> simpa [happen] using this

theorem runUntil_of_none {calendar : Calendar} {moment : Nat} {session : Session}
    (idle : session.agenda.nextBefore? moment = none) :
    session.runUntil calendar moment = session := by
  rw [runUntil]
  split
  · rfl
  · rename_i due
    rw [idle] at due
    cases due

theorem runUntil_of_some {calendar : Calendar} {moment : Nat} {session : Session}
    {event : LaterEvent} {agenda : Agenda LaterEvent}
    (due : session.agenda.nextBefore? moment = some (event, agenda)) :
    session.runUntil calendar moment =
      ({ session with agenda }.happen calendar event).runUntil calendar moment := by
  rw [runUntil]
  split
  · rename_i idle
    rw [due] at idle
    cases idle
  · rename_i first
    rw [due] at first
    cases first
    rfl

def settle (calendar : Calendar) (session : Session) : Session :=
  session.runUntil calendar (session.agenda.now + 1)

def start (calendar : Calendar) (session : Session) (task : Nat × LaterEvent) : Session :=
  if task.1 = 0 then session.happen calendar task.2
  else { session with agenda := session.agenda.schedule task.1 task.2 }

/-- Gives way once to all that can run. What has come due was ready before the rest. -/
def giveWay (calendar : Calendar) (session : Session) : Session :=
  let session := session.settle calendar
  session.ready.foldl (start calendar) { session with ready := [] }

/-- Schedules an event. A peer that will be dropped is given up at once, and only if it is
owned. -/
def schedule (session : Session) : Later → Session
  | .publish delay origin message =>
    { session with ready := session.ready ++ [(delay, .publish origin message)] }
  | .dropPeer delay id =>
    if id ∈ session.peers then
      { session with
        ready := session.ready ++ [(delay, .detach id)]
        peers := session.peers.erase id }
    else session

/-- Waits until a poll finds something, at most until a deadline. Whatever is due before the
deadline happens in the meantime, and each event is followed by a poll. What is due at the deadline
itself comes after the wait. -/
def await (calendar : Calendar) (poll : Session → Option Received × Session) (deadline : Nat)
    (session : Session) : Received × Session :=
  match poll session with
  | (some outcome, session) => (outcome, session.settle calendar)
  | (none, _) =>
    match next : session.agenda.nextBefore? deadline with
    | none => (.timedOut, { session with agenda := session.agenda.advanceTo deadline })
    | some (event, agenda) =>
      have := Agenda.nextBefore?_length next
      await calendar poll deadline ({ session with agenda }.happen calendar event)
termination_by session.agenda.pending.length
decreasing_by cases event <;> simpa [happen] using this

theorem await_of_found {calendar : Calendar} {poll : Session → Option Received × Session}
    {deadline : Nat} {session polled : Session} {outcome : Received}
    (found : poll session = (some outcome, polled)) :
    session.await calendar poll deadline = (outcome, polled.settle calendar) := by
  rw [await, found]

theorem await_of_none {calendar : Calendar} {poll : Session → Option Received × Session}
    {deadline : Nat} {session : Session} (waits : (poll session).1 = none)
    (idle : session.agenda.nextBefore? deadline = none) :
    session.await calendar poll deadline =
      (.timedOut, { session with agenda := session.agenda.advanceTo deadline }) := by
  rw [await]
  split
  · simp_all
  · split
    · rfl
    · simp_all

theorem await_of_some {calendar : Calendar} {poll : Session → Option Received × Session}
    {deadline : Nat} {session : Session} {event : LaterEvent} {agenda : Agenda LaterEvent}
    (waits : (poll session).1 = none)
    (due : session.agenda.nextBefore? deadline = some (event, agenda)) :
    session.await calendar poll deadline =
      ({ session with agenda }.happen calendar event).await calendar poll deadline := by
  rw [await]
  split
  · simp_all
  · split
    · simp_all
    · rename_i first
      rw [due] at first
      cases first
      rfl

/-- A wait of at most `bound`. It does not give way if there is something at once, or no time. -/
def awaitFor (calendar : Calendar) (poll : Session → Option Received × Session) (bound : Nat)
    (session : Session) : Received × Session :=
  match poll session with
  | (some outcome, session) => (outcome, session)
  | (none, _) =>
    if bound = 0 then (.timedOut, session)
    else (session.giveWay calendar).await calendar poll (session.agenda.now + bound)

def pollMailbox (id : ConnectionId) (session : Session) : Option Received × Session :=
  let (outcome, hub) := session.hub.poll id
  (outcome, { session with hub })

def pollLink (key : Nat) (session : Session) : Option Received × Session :=
  match session.links.get? key with
  | none => (some .closed, session)
  | some link =>
    let (outcome, link, hub) := link.poll session.hub
    (outcome, { session with hub, links := session.links.put key link })

/-- Drops the link under a key. Its mailbox goes at once, and its pump when it gets its turn. -/
def dropLink (session : Session) (key : Nat) : Session :=
  match session.links.get? key with
  | some (.attached connection _) =>
    { session with
      hub := session.hub.dropMailbox connection
      ready := session.ready ++ [(0, .detach connection)]
      links := session.links.erase key }
  | _ => { session with links := session.links.erase key }

/-- Puts a link under a key; one that was there is dropped. -/
def putLink (session : Session) (key : Nat) (link : Link) : Session :=
  let session := session.dropLink key
  { session with links := session.links.put key link }

def step (calendar : Calendar) (session : Session) : Step → Answer × Session
  | .attach =>
    let (id, hub) := session.hub.attach
    (.attached id,
      { session with
        hub
        peers := session.peers ++ [id]
        mailboxes := session.mailboxes ++ [id] })
  | .publish id message =>
    if id ∈ session.peers then
      let (report, hub) := session.hub.publish id message (calendar session.agenda.now)
      (.report report, { session with hub })
    else (.missing, session)
  | .publishAs origin message =>
    let (report, hub) := session.hub.publish origin message (calendar session.agenda.now)
    (.report report, { session with hub })
  | .dropPeer id =>
    if id ∈ session.peers then
      (.holds true,
        { session with hub := session.hub.detach id, peers := session.peers.erase id })
    else (.holds false, session)
  | .dropMailbox id =>
    if id ∈ session.mailboxes then
      (.holds true,
        { session with
          hub := session.hub.dropMailbox id
          mailboxes := session.mailboxes.erase id })
    else (.holds false, session)
  | .isAttached id => (.holds (session.hub.isAttached id), session)
  | .tryReceive id =>
    if id ∈ session.mailboxes then
      match session.hub.poll id with
      | (some (.message message), hub) => (.taken (some message), { session with hub })
      | (_, hub) => (.taken none, { session with hub })
    else (.missing, session)
  | .drain id =>
    if id ∈ session.mailboxes then
      let (messages, hub) := session.hub.drain id
      (.drained messages, { session with hub })
    else (.missing, session)
  | .receive id bound later =>
    let session := (later.map session.schedule).getD session
    if id ∈ session.mailboxes then
      let (outcome, session) := session.awaitFor calendar (pollMailbox id) bound
      (.received outcome, session)
    else (.missing, session)
  | .link key =>
    let (link, hub) := Link.connect session.hub
    (.done, ({ session with hub }.putLink key link).giveWay calendar)
  | .deadLink key => (.done, session.putLink key .dead)
  | .linkSend key message =>
    match session.links.get? key with
    | none => (.missing, session)
    | some link =>
      let session := session.giveWay calendar
      match link.send? message with
      | none => (.linkClosed, session)
      | some link =>
        let (link, hub) := link.pump (calendar session.agenda.now) session.hub
        (.done, { session with hub, links := session.links.put key link })
  | .linkReceive key bound =>
    if session.links.contains key then
      let (outcome, session) := session.awaitFor calendar (pollLink key) bound
      (.received outcome, session)
    else (.missing, session)
  | .linkDrop key =>
    (.holds (session.links.contains key), (session.dropLink key).giveWay calendar)

def run (calendar : Calendar) (session : Session) : List Step → List (Answer × Session)
  | [] => []
  | step :: rest =>
    let (answer, next) := session.step calendar step
    (answer, next) :: next.run calendar rest

end Session

end ChatHub
