import ChatHub.Proofs.Hub.Direct
import ChatHub.Proofs.Hub.Members
/-!
Links to one hub, as their owner sees them when all that is under way has settled. A circle keeps
nothing but the messages in each link's mailbox, without their times. Main statement:
`Circle.run_session`, by which links in the hub's own process form a circle.
-/

set_option autoImplicit false

namespace ChatHub

/-! ## What is seen -/

def Stamped.untimed (message : Stamped) : Stamped :=
  { message with timestamp := "" }

def Received.untimed : Received → Received
  | .message content => .message content.untimed
  | .timedOut => .timedOut
  | .closed => .closed

def Session.Answer.untimed : Session.Answer → Session.Answer
  | .received outcome => .received outcome.untimed
  | .taken message => .taken (message.map Stamped.untimed)
  | .drained messages => .drained (messages.map Stamped.untimed)
  | answer => answer

/-- How many peers a hub has, and what is in the mailbox of the link under each key. -/
structure View where
  peers : Nat
  mailbox? : Nat → Option (List Inbound)

/-- The messages in the mailbox of a link. -/
def Link.waiting (link : Link) (hub : Hub) : List Stamped :=
  match link with
  | .attached connection _ => hub.queued connection
  | .detached line => line.mailbox.messages

def Session.view (session : Session) : View where
  peers := session.hub.peerCount
  mailbox? key := (session.links.get? key).map fun link =>
    (link.waiting session.hub).map Stamped.inbound

/-- What a party does with links, each under a key of its own. Connecting under a key that is taken
drops the link that was there. -/
inductive LinkStep where
  | connect (key : Nat)
  | send (key : Nat) (message : Inbound)
  | receive (key bound : Nat)
  | drop (key : Nat)
  deriving DecidableEq, Repr

def LinkStep.inProcess : LinkStep → Session.Step
  | .connect key => .link key
  | .send key message => .linkSend key message
  | .receive key bound => .linkReceive key bound
  | .drop key => .linkDrop key

/-! ## Circles -/

structure Circle where
  mailboxes : Roster Nat (List Inbound)
  distinct : mailboxes.Distinct

namespace Circle

instance : EmptyCollection Circle := ⟨{}, Roster.distinct_empty⟩

def put (circle : Circle) (key : Nat) (messages : List Inbound) : Circle where
  mailboxes := circle.mailboxes.put key messages
  distinct := circle.distinct.put key messages

def erase (circle : Circle) (key : Nat) : Circle where
  mailboxes := circle.mailboxes.erase key
  distinct := circle.distinct.erase key

/-- What is sent on one link comes into the mailboxes of all others. -/
def tell (circle : Circle) (key : Nat) (message : Inbound) : Circle where
  mailboxes := circle.mailboxes.mapItems fun other messages =>
    if other = key then messages else messages ++ [message]
  distinct := circle.distinct.mapItems _

def step (circle : Circle) : LinkStep → Session.Answer × Circle
  | .connect key => (.done, circle.put key [])
  | .send key message =>
    if circle.mailboxes.contains key then (.done, circle.tell key message) else (.missing, circle)
  | .receive key _ =>
    match circle.mailboxes.get? key with
    | none => (.missing, circle)
    | some [] => (.received .timedOut, circle)
    | some (message :: rest) => (.received (.message (message.stamp "")), circle.put key rest)
  | .drop key => (.holds (circle.mailboxes.contains key), circle.erase key)

def view (circle : Circle) : View where
  peers := circle.mailboxes.entries.length
  mailbox? := circle.mailboxes.get?

/-- Takes steps in order, with the answer to each and the view behind it. -/
def run (circle : Circle) : List LinkStep → List (Session.Answer × View)
  | [] => []
  | step :: rest =>
    let (answer, next) := circle.step step
    (answer, next.view) :: next.run rest

/-! ## A hub with a circle of peers -/

/-- The connections of a hub have the places of a circle and its messages. -/
structure OnHub (circle : Circle) (hub : Hub) (ends : Nat → Option ConnectionId) : Prop where
  sound : hub.Sound
  seats : hub.Seats ends
  mailboxes : ∀ key, circle.mailboxes.get? key =
    (ends key).map fun id => (hub.queued id).map Stamped.inbound

section OnHub

variable {circle next : Circle} {hub later : Hub} {ends : Nat → Option ConnectionId}
  {events : List Hub.Event} {key : Nat} {id : ConnectionId}

theorem OnHub.empty : (∅ : Circle).OnHub {} fun _ => none where
  sound := Hub.sound_empty
  seats :=
    { member := fun named => nomatch named
      apart := fun named => nomatch named
      only := fun attached => nomatch attached }
  mailboxes _ := rfl

theorem OnHub.peerCount (onHub : circle.OnHub hub ends) :
    hub.peerCount = circle.mailboxes.entries.length := by
  apply onHub.seats.peerCount circle.distinct
  intro key
  rw [onHub.mailboxes, Option.isSome_map]

/-- One place is given to a new connection or to nobody, and all others keep theirs. -/
private theorem OnHub.reseat (onHub : circle.OnHub hub ends) (run : Hub.Run hub events later)
    (holder? : Option ConnectionId) (silent : ∀ event ∈ events, event.message? = none)
    (beside : ∀ other id, other ≠ key → ends other = some id →
      ∀ event ∈ events, event.subject ≠ id)
    (comes : ∀ id, holder? = some id →
      hub.nextId ≤ id ∧ later.IsMember id ∧ later.queued id = [])
    (only : ∀ id, later.isAttached id = true →
      holder? = some id ∨ hub.isAttached id = true ∧ ends key ≠ some id)
    (mailboxes : ∀ other, next.mailboxes.get? other =
      if other = key then holder?.map fun _ => [] else circle.mailboxes.get? other) :
    next.OnHub later fun other => if other = key then holder? else ends other := by
  have kept : ∀ other id, other ≠ key → ends other = some id →
      later.IsMember id ∧ later.queued id = hub.queued id := by
    intro other id different named
    have overheard := run.overhears onHub.sound (beside other id different named)
    rw [List.filterMap_eq_nil_iff.mpr silent] at overheard
    obtain ⟨member, same⟩ := overheard.isMember (onHub.seats.member named)
    exact ⟨member, same.trans (List.append_nil _)⟩
  have isNew : ∀ other id, ends other = some id → holder? ≠ some id := by
    intro other id named taken
    have early := (onHub.seats.member named).lt_nextId onHub.sound
    exact absurd early (Nat.not_lt.mpr (comes id taken).1)
  constructor
  · exact run.sound onHub.sound
  · constructor
    · intro other id named
      by_cases same : other = key
      · rw [if_pos same] at named
        exact (comes id named).2.1
      · rw [if_neg same] at named
        exact (kept other id same named).1
    · intro first second id one two
      by_cases isFirst : first = key
      · by_cases isSecond : second = key
        · rw [isFirst, isSecond]
        · rw [if_pos isFirst] at one
          rw [if_neg isSecond] at two
          exact absurd one (isNew second id two)
      · rw [if_neg isFirst] at one
        by_cases isSecond : second = key
        · rw [if_pos isSecond] at two
          exact absurd two (isNew first id one)
        · rw [if_neg isSecond] at two
          exact onHub.seats.apart one two
    · intro id attached
      rcases only id attached with taken | ⟨before, elsewhere⟩
      · exact ⟨key, by rw [if_pos rfl, taken]⟩
      · obtain ⟨other, named⟩ := onHub.seats.only before
        have different : other ≠ key := fun same => elsewhere (same ▸ named)
        exact ⟨other, by rw [if_neg different, named]⟩
  · intro other
    rw [mailboxes]
    by_cases same : other = key
    · rw [if_pos same, if_pos same]
      cases taken : holder? with
      | none => rfl
      | some id =>
        rw [Option.map_some, Option.map_some, (comes id taken).2.2]
        rfl
    · rw [if_neg same, if_neg same, onHub.mailboxes]
      cases named : ends other with
      | none => rfl
      | some id => rw [Option.map_some, Option.map_some, (kept other id same named).2]

/-- The connection at a place drops its mailbox and leaves, if there is one. -/
def vacate (hub : Hub) : Option ConnectionId → Hub
  | none => hub
  | some id => (hub.dropMailbox id).detach id

def vacateEvents : Option ConnectionId → List Hub.Event
  | none => []
  | some id => [.abandoned id, .detached id]

private theorem vacate_run (hub : Hub) (holder? : Option ConnectionId) :
    Hub.Run hub (vacateEvents holder?) (vacate hub holder?) := by
  cases holder? with
  | none => exact .nil
  | some id => exact .cons (.dropMailbox hub id) (Hub.Step.detach _ id).run

private theorem mem_vacateEvents {holder? : Option ConnectionId} {event : Hub.Event}
    (member : event ∈ vacateEvents holder?) :
    holder? = some event.subject ∧ event.message? = none := by
  cases holder? with
  | none => cases member
  | some id =>
    rcases List.mem_cons.mp member with rfl | last
    · exact ⟨rfl, rfl⟩
    · rw [List.mem_singleton.mp last]
      exact ⟨rfl, rfl⟩

private theorem isAttached_vacate (hub : Hub) (holder? : Option ConnectionId) (id : ConnectionId) :
    (vacate hub holder?).isAttached id = (hub.isAttached id && decide (holder? ≠ some id)) := by
  cases holder? with
  | none => simp [vacate]
  | some other =>
    have dropped : (hub.dropMailbox other).isAttached id = hub.isAttached id := rfl
    rw [vacate, Hub.isAttached_detach, dropped, Bool.and_comm]
    simp [eq_comm]

theorem OnHub.connect (onHub : circle.OnHub hub ends) (key : Nat) :
    (circle.put key []).OnHub (vacate hub.attach.2 (ends key))
      fun other => if other = key then some hub.nextId else ends other := by
  have joined : Hub.Run hub [.attached hub.nextId] hub.attach.2 := (Hub.Step.attach hub).run
  have left := vacate_run hub.attach.2 (ends key)
  have bound : ∀ {other id}, ends other = some id → id ≠ hub.nextId := by
    rintro other id named rfl
    exact absurd ((onHub.seats.member named).lt_nextId onHub.sound) (Nat.lt_irrefl _)
  apply onHub.reseat (joined.append left) (some hub.nextId)
  · intro event member
    rcases List.mem_append.mp member with first | later
    · rw [List.mem_singleton.mp first]
      rfl
    · exact (mem_vacateEvents later).2
  · rintro other id different named event member rfl
    rcases List.mem_append.mp member with first | later
    · rw [List.mem_singleton.mp first] at named
      exact bound named rfl
    · exact different (onHub.seats.apart named (mem_vacateEvents later).1)
  · rintro id ⟨⟩
    have beside : ∀ event ∈ vacateEvents (ends key), event.subject ≠ hub.nextId := by
      intro event member
      exact bound (mem_vacateEvents member).1
    have overheard := left.overhears onHub.sound.attach beside
    rw [List.filterMap_eq_nil_iff.mpr fun event member => (mem_vacateEvents member).2] at overheard
    obtain ⟨member, same⟩ := overheard.isMember (Hub.isMember_attach hub)
    exact ⟨Nat.le_refl _, member, by rw [same, Hub.queued_attach, List.append_nil]⟩
  · intro id attached
    rw [isAttached_vacate, Hub.isAttached_attach, Bool.and_eq_true, Bool.or_eq_true] at attached
    obtain ⟨isNew | before, elsewhere⟩ := attached
    · exact .inl (congrArg some (of_decide_eq_true isNew).symm)
    · exact .inr ⟨before, of_decide_eq_true elsewhere⟩
  · intro other
    exact Roster.get?_put circle.mailboxes key other []

theorem OnHub.drop (onHub : circle.OnHub hub ends) (key : Nat) :
    (circle.erase key).OnHub (vacate hub (ends key))
      fun other => if other = key then none else ends other := by
  apply onHub.reseat (vacate_run hub (ends key)) none
  · exact fun event member => (mem_vacateEvents member).2
  · rintro other id different named event member rfl
    exact different (onHub.seats.apart named (mem_vacateEvents member).1)
  · rintro id ⟨⟩
  · intro id attached
    rw [isAttached_vacate, Bool.and_eq_true] at attached
    exact .inr ⟨attached.1, of_decide_eq_true attached.2⟩
  · exact Roster.get?_erase circle.mailboxes key

theorem OnHub.send (onHub : circle.OnHub hub ends) (named : ends key = some id)
    (message : Inbound) (timestamp : String) :
    (circle.tell key message).OnHub (hub.publish id message timestamp).2 ends := by
  have heard : ∀ {other its}, ends other = some its →
      (hub.publish id message timestamp).2.IsMember its ∧
        (hub.publish id message timestamp).2.queued its =
          hub.queued its ++ if other = key then [] else [message.stamp timestamp] := by
    intro other its place
    by_cases own : other = key
    · obtain rfl : its = id := Option.some.inj ((own ▸ place).symm.trans named)
      rw [if_pos own, List.append_nil]
      exact onHub.sound.publish_own (onHub.seats.member place) message timestamp
    · have foreign : id ≠ its := fun same => own (onHub.seats.apart place (same ▸ named))
      rw [if_neg own]
      exact (onHub.sound.publish_overhears message timestamp foreign).isMember
        (onHub.seats.member place)
  constructor
  · exact onHub.sound.publish id message timestamp
  · constructor
    · exact fun place => (heard place).1
    · exact onHub.seats.apart
    · intro other attached
      rw [onHub.sound.isAttached_publish] at attached
      exact onHub.seats.only attached
  · intro other
    rw [tell, Roster.get?_mapItems, onHub.mailboxes]
    cases place : ends other with
    | none => rfl
    | some its =>
      rw [Option.map_some, Option.map_some, Option.map_some, (heard place).2, List.map_append]
      split
      · rw [List.map_nil, List.append_nil]
      · rfl

theorem OnHub.take (onHub : circle.OnHub hub ends) (named : ends key = some id)
    {message : Stamped} (polled : hub.poll id = (some (.message message), later)) :
    ∃ rest, circle.mailboxes.get? key = some (message.inbound :: rest) ∧
      (circle.put key rest).OnHub later ends := by
  have step := Hub.Step.poll polled
  have front := Hub.queued_of_poll polled
  refine ⟨(later.queued id).map Stamped.inbound, ?_, ?_⟩
  · rw [onHub.mailboxes, named, Option.map_some, front, if_pos rfl]
    rfl
  constructor
  · exact step.sound onHub.sound
  · constructor
    · exact fun place => step.isMember onHub.sound (by simp) (onHub.seats.member place)
    · exact onHub.seats.apart
    · intro other attached
      rw [step.isAttached onHub.sound] at attached
      exact onHub.seats.only attached
  · intro other
    rw [put, Roster.get?_put, onHub.mailboxes]
    by_cases own : other = key
    · rw [if_pos own, own, named]
      rfl
    · rw [if_neg own]
      cases place : ends other with
      | none => rfl
      | some its =>
        have foreign : its ≠ id := by
          rintro rfl
          exact own (onHub.seats.apart place named)
        rw [Option.map_some, Option.map_some, front its, if_neg foreign, List.nil_append]

end OnHub

/-! ## Links in the hub's own process -/

section InProcess

variable (calendar : Calendar) {circle : Circle} {direct : Direct} {session : Session}

private theorem awaitFor_cases (quiet : session.Quiet) (sound : session.hub.Sound)
    {its : ConnectionId} (member : session.hub.IsMember its) (bound : Nat) :
    (∃ message later, session.hub.poll its = (some (.message message), later) ∧
      session.awaitFor calendar (Session.pollMailbox its) bound =
        (.message message, { session with hub := later })) ∨
    (session.hub.queued its = [] ∧ ∃ agenda,
      session.awaitFor calendar (Session.pollMailbox its) bound =
        (.timedOut, { session with agenda })) := by
  rcases member.poll_cases sound with ⟨message, later, polled⟩ | ⟨empty, polled⟩
  · have found : Session.pollMailbox its session =
        (some (.message message), { session with hub := later }) := by
      rw [Session.pollMailbox, polled]
    refine .inl ⟨message, later, polled, ?_⟩
    simp only [Session.awaitFor, found]
  · have waits : Session.pollMailbox its session = (none, session) := by
      rw [Session.pollMailbox, polled]
    refine .inr ⟨empty, ?_⟩
    simp only [Session.awaitFor, waits]
    by_cases noTime : bound = 0
    · rw [if_pos noTime]
      exact ⟨_, rfl⟩
    · rw [if_neg noTime, quiet.giveWay,
        Session.await_of_none (congrArg Prod.fst waits) (quiet.idle _)]
      exact ⟨_, rfl⟩

theorem OnHub.receive (onHub : circle.OnHub direct.session.hub direct.ends.get?)
    (quiet : direct.session.Quiet) (key bound : Nat) :
    let after := direct.step calendar id (.linkReceive key bound)
    after.1.untimed = (circle.step (.receive key bound)).1 ∧
      (circle.step (.receive key bound)).2.OnHub after.2.session.hub after.2.ends.get? := by
  have shown := onHub.mailboxes key
  simp only [Direct.step, step]
  cases named : direct.ends.get? key with
  | none =>
    rw [named, Option.map_none] at shown
    rw [shown]
    exact ⟨rfl, onHub⟩
  | some its =>
    rcases awaitFor_cases calendar quiet onHub.sound (onHub.seats.member named) bound with
      ⟨message, later, polled, taken⟩ | ⟨empty, agenda, taken⟩
    · obtain ⟨rest, front, next⟩ := onHub.take named polled
      simp only [taken, front]
      exact ⟨rfl, next⟩
    · rw [named, Option.map_some, empty] at shown
      simp only [taken, shown]
      exact ⟨rfl, onHub⟩

private theorem OnHub.direct_step (onHub : circle.OnHub direct.session.hub direct.ends.get?)
    (quiet : direct.session.Quiet) (step : LinkStep) :
    let after := direct.step calendar id step.inProcess
    after.1.untimed = (circle.step step).1 ∧
      (circle.step step).2.OnHub after.2.session.hub after.2.ends.get? := by
  have contains : ∀ key, circle.mailboxes.contains key = direct.ends.contains key := by
    intro key
    rw [Roster.contains, onHub.mailboxes, Option.isSome_map, Roster.contains]
  have dropped : ∀ (dropping : Direct) (key : Nat),
      (dropping.drop id key).session.hub = vacate dropping.session.hub (dropping.ends.get? key) ∧
        ∀ other, (dropping.drop id key).ends.get? other =
          if other = key then none else dropping.ends.get? other := by
    intro dropping key
    unfold Direct.drop
    cases named : dropping.ends.get? key with
    | none =>
      refine ⟨rfl, fun other => ?_⟩
      by_cases own : other = key
      · rw [if_pos own, own]
        exact named
      · rw [if_neg own]
    | some its => exact ⟨rfl, Roster.get?_erase dropping.ends key⟩
  cases step with
  | connect key =>
    let joined : Direct :=
      ⟨{ direct.session with hub := direct.session.hub.attach.2 }, direct.ends⟩
    obtain ⟨hub, left⟩ := dropped joined key
    have ends : (fun other => if other = key then some direct.session.hub.nextId
        else direct.ends.get? other) =
          ((joined.drop id key).ends.put key direct.session.hub.nextId).get? := by
      funext other
      rw [Roster.get?_put, left]
      split <;> rfl
    have next := onHub.connect key
    rw [ends] at next
    refine ⟨rfl, ?_⟩
    show (circle.put key []).OnHub (joined.drop id key).session.hub _
    rw [hub]
    exact next
  | send key message =>
    simp only [LinkStep.inProcess, Direct.step, Circle.step, contains]
    cases named : direct.ends.get? key with
    | none =>
      simp only [Roster.contains, named, Option.isSome_none, Bool.false_eq_true, if_false]
      exact ⟨rfl, onHub⟩
    | some its =>
      simp only [Roster.contains, named, Option.isSome_some, if_true]
      exact ⟨rfl, onHub.send named message _⟩
  | receive key bound => exact onHub.receive calendar quiet key bound
  | drop key =>
    obtain ⟨hub, left⟩ := dropped direct key
    refine ⟨congrArg Session.Answer.holds (contains key).symm, ?_⟩
    have next := onHub.drop key
    rw [← funext left, ← hub] at next
    exact next

private theorem LinkStep.inProcess_ne (step : LinkStep) :
    (∀ key, step.inProcess ≠ .deadLink key) ∧
      ∀ id bound later, step.inProcess ≠ .receive id bound (some later) := by
  cases step <;> simp [LinkStep.inProcess]

private theorem OnHub.direct_run (onHub : circle.OnHub direct.session.hub direct.ends.get?)
    (quiet : direct.session.Quiet) (steps : List LinkStep) :
    List.Forall₂ (fun (after : Session.Answer × Direct) seen =>
        after.1.untimed = seen.1 ∧ ∃ circle : Circle, circle.view = seen.2 ∧
          circle.OnHub after.2.session.hub after.2.ends.get?)
      (direct.run calendar id (steps.map LinkStep.inProcess)) (circle.run steps) := by
  induction steps generalizing direct circle with
  | nil => exact .nil
  | cons step rest ih =>
    obtain ⟨answer, next⟩ := onHub.direct_step calendar quiet step
    obtain ⟨alive, unscheduled⟩ := LinkStep.inProcess_ne step
    have still := Direct.quiet_step quiet calendar alive unscheduled
    exact .cons ⟨answer, _, rfl, next⟩ (ih next still)

private theorem OnHub.view_session (onHub : circle.OnHub direct.session.hub direct.ends.get?)
    (replaces : Replaces direct session) : session.view = circle.view := by
  have hub : direct.session.hub = session.hub := by
    rw [replaces.session, Session.unlink]
  rw [hub] at onHub
  rw [Session.view, view, onHub.peerCount, View.mk.injEq]
  refine ⟨rfl, funext fun key => ?_⟩
  rw [onHub.mailboxes, replaces.links, Option.map_map]
  rfl

/-- Links in the hub's own process form a circle. -/
theorem run_session (steps : List LinkStep) :
    ((Session.run calendar {} (steps.map LinkStep.inProcess)).map fun after =>
      (after.1.untimed, after.2.view)) = Circle.run ∅ steps := by
  have inProcess : ∀ key, Session.Step.deadLink key ∉ steps.map LinkStep.inProcess := by
    intro key member
    obtain ⟨step, _, same⟩ := List.mem_map.mp member
    exact (LinkStep.inProcess_ne step).1 key same
  have unscheduled : ∀ id bound later,
      Session.Step.receive id bound (some later) ∉ steps.map LinkStep.inProcess := by
    intro id bound later member
    obtain ⟨step, _, same⟩ := List.mem_map.mp member
    exact (LinkStep.inProcess_ne step).2 id bound later same
  have quiet : ({} : Direct).session.Quiet := ⟨rfl, rfl⟩
  have replaced := @Replaces.empty.run calendar _ _ _ inProcess
  rw [Direct.run_of_quiet quiet inProcess unscheduled] at replaced
  have formed := OnHub.direct_run calendar (show (∅ : Circle).OnHub ({} : Direct).session.hub _ from
    OnHub.empty) quiet steps
  generalize Direct.run calendar id {} (steps.map LinkStep.inProcess) = directly at replaced formed
  generalize Session.run calendar {} (steps.map LinkStep.inProcess) = linked at replaced
  generalize Circle.run ∅ steps = seen at formed
  induction replaced generalizing seen with
  | nil =>
    cases formed
    rfl
  | @cons mine theirs _ _ alike _ ih =>
    cases formed with
    | cons now later =>
      obtain ⟨answer, circle, view, onHub⟩ := now
      rw [List.map_cons, ih _ later, ← alike.1, answer, onHub.view_session alike.2, view]

end InProcess

end Circle

end ChatHub
