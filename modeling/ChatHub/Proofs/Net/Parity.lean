import ChatHub.Proofs.Net.Conveyance
import Mathlib.Data.List.TakeWhile
/-!
Links over TCP against links in the hub's own process. Once all that is under way has settled, a
party finds the same messages in its mailboxes, and the hub as many peers. Main statement:
`Cabled.runs_as_in_process`.
-/

set_option autoImplicit false

namespace ChatHub

open Wire
open Session (Answer)

theorem Line.foldl_deliver (line : Line) (isOpen : line.isOpen = true) (messages : List Stamped) :
    (messages.foldl deliver line).isOpen = true ∧
      (messages.foldl deliver line).accepts = line.accepts ∧
      (messages.foldl deliver line).mailbox.messages = line.mailbox.messages ++ messages := by
  induction messages generalizing line with
  | nil => exact ⟨isOpen, rfl, (List.append_nil _).symm⟩
  | cons message rest ih =>
    obtain ⟨gone, held⟩ := Bool.and_eq_true_iff.mp isOpen
    have taken : line.deliver message = { line with mailbox := line.mailbox.deliver message } :=
      if_pos isOpen
    have next : (line.deliver message).isOpen = true := by
      rw [taken, Line.isOpen, Mailbox.held_deliver]
      exact isOpen
    obtain ⟨opened, accepts, messages⟩ := ih (line.deliver message) next
    rw [List.foldl_cons]
    refine ⟨opened, ?_, ?_⟩
    · rw [accepts, taken]
    · rw [messages, taken, Mailbox.messages_deliver held, List.append_assoc, List.singleton_append]

namespace Cabled

variable {service : Service} {socket : Nat} {cable : Cable} {id : ConnectionId} {line : Line}

/-! ## At rest -/

/-- A cable with nothing under way: all that its link was sent is in the mailbox. -/
structure Resting (service : Service) (socket : Nat) (cable : Cable) (id : ConnectionId)
    (line : Line) : Prop where
  isHeld : cable.isHeld = true
  accepted : cable.isAccepted = true
  nothing : unread cable = []
  toLink : cable.toLink = []
  peer : service.sockets.get? socket = some (.tcp { connection := id })
  queue : service.hub.queued id = []
  link : cable.link = { line }
  isOpen : line.isOpen = true
  accepts : line.accepts = true

/-- All cables are at rest, and their mailboxes are those of a circle. -/
structure Rests (calendar : Calendar) (circle : Circle) (cabled : Cabled) : Prop where
  underway : ∃ origin, Underway calendar circle origin none cabled
  resting : ∀ {key socket}, cabled.keys.get? key = some socket → ∃ cable id line,
    cabled.cables.get? socket = some cable ∧ Resting cabled.service socket cable id line ∧
      circle.mailboxes.get? key = some (line.mailbox.messages.map Stamped.inbound)
  named : ∀ {socket cable}, cabled.cables.get? socket = some cable →
    ∃ key, cabled.keys.get? key = some socket

variable {calendar : Calendar} {circle : Circle} {origin : Nat} {pending : Option Inbound}
  {cabled : Cabled}

theorem Settled.nothing (still : Settled calendar cabled)
    (found : cabled.cables.get? socket = some cable) (isHeld : cable.isHeld = true)
    (accepted : cable.isAccepted = true)
    (speaks : cabled.service.speakerAt? socket = some (id, .tcp)) :
    unread cable = [] ∧ cable.toLink = [] ∧ cabled.service.hub.queued id = [] := by
  -- Whatever were left in one of these places could go on.
  have toHub : cable.toHub = [] := by
    by_contra more
    exact still _ (.reachHub 0 found accepted (List.append_nil _).symm more)
  have outbox : cable.outbox.toList = [] := by
    rw [← Fifo.pop?_eq_none_iff]
    cases first : cable.outbox.pop? with
    | none => rfl
    | some taken => exact absurd (.write found first) (still _)
  refine ⟨?_, ?_, ?_⟩
  · rw [unread, toHub, outbox]
    rfl
  · by_contra more
    exact still _ (.reachLink found isHeld (List.append_nil _).symm more)
  · rcases cabled.service.forward_cases socket with
      ⟨_, _, message, hub, _, _, next, _, gave⟩ | ⟨_, _, _, empty⟩
    · exact absurd (.forward found (Prod.ext gave next)) (still _)
    · exact empty id .tcp speaks

/-- All that the hub has forwarded is in the mailbox once the link has read it. -/
theorem Downlink.arrived {stream : List Inbound} {relayed : List (Inbound × String)}
    {got : List UInt8} (downlink : Downlink [] cable stream line relayed got)
    (toLink : cable.toLink = []) :
    ∃ last : Line, cable.link = { line := last } ∧ last.isOpen = true ∧ last.accepts = true ∧
      last.mailbox.messages.map Stamped.inbound = stream := by
  obtain ⟨isOpen, accepts, messages⟩ := line.foldl_deliver downlink.isOpen
    (relayed.map fun sent => sent.1.stamp sent.2)
  refine ⟨_, ?_, isOpen, accepts.trans downlink.accepts, ?_⟩
  · have parts := downlink.parts
    rw [toLink, List.append_nil] at parts
    rw [downlink.link, parts, TcpLink.receive_relayed, if_pos downlink.readable,
      List.takeWhile_eq_self_iff.mpr (List.all_eq_true.mp downlink.readable), List.foldl_map]
  · have all := downlink.stream
    rw [List.map_nil, List.append_nil] at all
    rw [messages, ← all, List.map_append, List.map_map]
    rfl

/-- Where nothing can happen any more, all that was under way has arrived. -/
theorem Underway.rests_at (underway : Underway calendar circle origin pending cabled)
    (still : Settled calendar cabled) (found : cabled.cables.get? socket = some cable) :
    ownAt origin pending socket = none ∧ ∃ key id line, cabled.keys.get? key = some socket ∧
      Resting cabled.service socket cable id line ∧
      circle.mailboxes.get? key = some (line.mailbox.messages.map Stamped.inbound ++
        (dueAt origin pending socket).toList) := by
  cases underway.stands found with
  | dropped left leaves =>
    obtain ⟨nothing, _⟩ := List.append_eq_nil_iff.mp leaves.nothing
    exact absurd (.leave 0 found leaves.accepted left (.inl ⟨rfl, nothing⟩)) (still _)
  | held isHeld named mailbox sends gets conveys =>
    cases conveys with
    | dialled new unserved => exact absurd (.accept 0 found (new ▸ rfl)) (still _)
    | connected accepted uplink downlink =>
      obtain ⟨nothing, toLink, queue⟩ := still.nothing found isHeld accepted uplink.speaks
      rw [queue] at downlink
      obtain ⟨last, link, isOpen, accepts, rfl⟩ := downlink.arrived toLink
      cases uplink with
      | busy _ _ rest => exact absurd nothing rest
      | idle peer _ =>
        rw [gets]
        exact ⟨sends, _, _, last, named,
          ⟨isHeld, accepted, nothing, toLink, peer, queue, link, isOpen, accepts⟩, mailbox⟩

theorem Underway.rests (underway : Underway calendar circle origin pending cabled)
    (still : Settled calendar cabled) : Rests calendar circle cabled := by
  have isOver : pending = none := by
    cases its : pending with
    | none => rfl
    | some message =>
      subst its
      obtain ⟨key, named⟩ := underway.sent rfl
      obtain ⟨cable, found, _⟩ := underway.plugged named
      obtain ⟨nobody, _⟩ := underway.rests_at still found
      rw [ownAt, if_pos rfl] at nobody
      cases nobody
  subst isOver
  refine ⟨⟨origin, underway⟩, ?_, ?_⟩
  · intro key socket named
    obtain ⟨cable, found, _⟩ := underway.plugged named
    obtain ⟨_, other, id, line, its, resting, mailbox⟩ := underway.rests_at still found
    obtain rfl := underway.apart named its
    have nobody : dueAt origin none socket = none := ite_self none
    rw [nobody] at mailbox
    exact ⟨cable, id, line, found, resting, mailbox.trans (congrArg some (List.append_nil _))⟩
  · intro socket cable found
    obtain ⟨_, key, _, _, named, _⟩ := underway.rests_at still found
    exact ⟨key, named⟩

theorem Resting.downlink (resting : Resting service socket cable id line) :
    Downlink (service.hub.queued id) cable (line.mailbox.messages.map Stamped.inbound) line [] [] :=
  { link := resting.link
    parts := resting.toLink
    readable := rfl
    isOpen := resting.isOpen
    accepts := resting.accepts
    stream := by
      rw [resting.queue]
      simp
    waiting := fun message member => by
      rw [resting.queue] at member
      cases member }

theorem Resting.conveys (resting : Resting service socket cable id line) (due : Option Inbound) :
    Conveys service socket cable none due
      (line.mailbox.messages.map Stamped.inbound ++ due.toList) :=
  .connected resting.accepted (.idle resting.peer resting.nothing) resting.downlink

private theorem of_cable?_eq_some {key : Nat} (its : cabled.cable? key = some (socket, cable)) :
    cabled.keys.get? key = some socket ∧ cabled.cables.get? socket = some cable := by
  obtain ⟨other, named, found⟩ := Option.bind_eq_some_iff.mp its
  obtain ⟨_, found, same⟩ := Option.map_eq_some_iff.mp found
  cases same
  exact ⟨named, found⟩

/-! ## Links that come and go -/

namespace Underway

variable {key : Nat} {next : Circle} {changed : Cable}

theorem release (underway : Underway calendar circle origin none cabled)
    (named : cabled.keys.get? key = some socket)
    (found : cabled.cables.get? socket = some cable) (left : changed.isHeld = false)
    (leaves : Leaves cabled.service socket changed) :
    Underway calendar (circle.erase key) origin none
      { cabled.set cabled.service socket changed with keys := cabled.keys.erase key } := by
  have cables : ∀ other, (cabled.cables.put socket changed).get? other =
      if other = socket then some changed else cabled.cables.get? other :=
    fun other => Roster.get?_put ..
  have keys : ∀ other, (cabled.keys.erase key).get? other =
      if other = key then none else cabled.keys.get? other :=
    fun other => Roster.get?_erase ..
  have mailboxes : ∀ other, (circle.erase key).mailboxes.get? other =
      if other = key then none else circle.mailboxes.get? other :=
    fun other => Roster.get?_erase ..
  have of_keys : ∀ {other name}, (cabled.keys.erase key).get? name = some other →
      name ≠ key ∧ cabled.keys.get? name = some other := by
    intro other name its
    rw [keys] at its
    split at its
    · cases its
    · exact ⟨‹_›, its⟩
  constructor
  · exact underway.steady
  · exact underway.accounted
  · intro other absent
    rw [Cabled.set, cables] at absent
    split at absent
    · cases absent
    · exact underway.unserved absent
  · intro other late
    have absent := underway.fresh late
    rw [Cabled.set, cables, if_neg, absent]
    rintro rfl
    cases found.symm.trans absent
  · intro name other socket one two
    exact underway.apart (of_keys one).2 (of_keys two).2
  · intro other
    rw [keys, mailboxes]
    split
    · rfl
    · exact underway.keyed other
  · intro name other its
    obtain ⟨different, before⟩ := of_keys its
    obtain ⟨there, held⟩ := underway.plugged before
    rw [Cabled.set, cables, if_neg]
    · exact ⟨there, held⟩
    · rintro rfl
      exact different (underway.apart before named)
  · intro other there its
    rw [Cabled.set, cables] at its
    by_cases own : other = socket
    · rw [if_pos own] at its
      cases its
      exact .dropped left (own ▸ leaves)
    · rw [if_neg own] at its
      apply (underway.stands its).rename
      intro name alsoNamed
      have different : name ≠ key := by
        rintro rfl
        exact own (Option.some.inj (alsoNamed.symm.trans named))
      rw [keys, mailboxes, if_neg different, if_neg different]
      exact ⟨alsoNamed, rfl⟩
  · intro isPending
    cases isPending
  · intro message its
    cases its

theorem dial (underway : Underway calendar circle origin none cabled)
    (unnamed : cabled.keys.get? key = none)
    (mailboxes : ∀ other, next.mailboxes.get? other =
      if other = key then some [] else circle.mailboxes.get? other) :
    Underway calendar next origin none (cabled.dial key) := by
  have named : ∀ other, (cabled.dial key).keys.get? other =
      if other = key then some cabled.nextSocket else cabled.keys.get? other :=
    fun other => Roster.get?_put ..
  have cables : ∀ other, (cabled.dial key).cables.get? other =
      if other = cabled.nextSocket then some {} else cabled.cables.get? other :=
    fun other => Roster.get?_put ..
  have absent := underway.fresh (Nat.le_refl cabled.nextSocket)
  have isOld : ∀ {name other}, cabled.keys.get? name = some other →
      other ≠ cabled.nextSocket := by
    rintro name other its rfl
    obtain ⟨_, there, _⟩ := underway.plugged its
    cases absent.symm.trans there
  constructor
  · exact underway.steady
  · exact underway.accounted
  · intro other nothing
    rw [cables] at nothing
    split at nothing
    · cases nothing
    · exact underway.unserved nothing
  · intro other late
    have different : other ≠ cabled.nextSocket := Nat.ne_of_gt late
    rw [cables, if_neg different]
    exact underway.fresh (Nat.le_of_lt late)
  · intro first second socket one two
    rw [named] at one two
    split at one
    · rename_i isFirst
      split at two
      · rename_i isSecond
        rw [isFirst, isSecond]
      · cases one
        exact absurd rfl (isOld two)
    · split at two
      · cases two
        exact absurd rfl (isOld one)
      · exact underway.apart one two
  · intro other
    rw [named, mailboxes]
    split
    · rfl
    · exact underway.keyed other
  · intro name other its
    rw [named] at its
    split at its
    · cases its
      exact ⟨{}, by rw [cables, if_pos rfl], rfl⟩
    · obtain ⟨there, held⟩ := underway.plugged its
      exact ⟨there, by rw [cables, if_neg (isOld its)]; exact held.1, held.2⟩
  · intro other there found
    rw [cables] at found
    split at found
    · rename_i isNew
      cases found
      subst isNew
      have here : (cabled.dial key).keys.get? key = some cabled.nextSocket := by
        rw [named, if_pos rfl]
      exact .held rfl here ((mailboxes key).trans (if_pos rfl)) (ite_self none) (ite_self none)
        (.dialled rfl (underway.unserved absent))
    · apply (underway.stands found).rename
      intro name its
      have different : name ≠ key := by
        rintro rfl
        cases unnamed.symm.trans its
      rw [named, mailboxes, if_neg different, if_neg different]
      exact ⟨its, rfl⟩
  · intro isPending
    cases isPending
  · intro message its
    cases its

end Underway

/-! ## At rest, as the party sees it -/

namespace Rests

variable {key : Nat}

theorem cable?_eq_none (rests : Rests calendar circle cabled) :
    cabled.cable? key = none ↔ circle.mailboxes.get? key = none := by
  obtain ⟨_, underway⟩ := rests.underway
  rw [← Option.isNone_iff_eq_none, ← Option.isNone_iff_eq_none, ← Option.not_isSome,
    ← Option.not_isSome, ← underway.keyed]
  cases named : cabled.keys.get? key with
  | none => simp [cable?, named]
  | some socket =>
    obtain ⟨cable, _, _, found, _⟩ := rests.resting named
    simp [cable?, named, found]

/-- What is found under a key is at rest. -/
theorem of_cable? (rests : Rests calendar circle cabled)
    (found : cabled.cable? key = some (socket, cable)) :
    cabled.keys.get? key = some socket ∧ cabled.cables.get? socket = some cable ∧
      ∃ id line, Resting cabled.service socket cable id line ∧
        circle.mailboxes.get? key = some (line.mailbox.messages.map Stamped.inbound) := by
  obtain ⟨named, its⟩ := of_cable?_eq_some found
  obtain ⟨there, id, line, same, resting, mailbox⟩ := rests.resting named
  cases its.symm.trans same
  exact ⟨named, its, id, line, resting, mailbox⟩

/-! ## What the party sees -/

theorem view (rests : Rests calendar circle cabled) : cabled.view = circle.view := by
  obtain ⟨_, underway⟩ := rests.underway
  have ends : ∀ {key id},
      (cabled.keys.get? key).bind cabled.service.connectionAt? = some id →
        ∃ socket listener, cabled.keys.get? key = some socket ∧
          cabled.service.speakerAt? socket = some (id, listener) := by
    intro key id its
    obtain ⟨socket, named, known⟩ := Option.bind_eq_some_iff.mp its
    rw [Service.connectionAt?_eq] at known
    obtain ⟨⟨_, listener⟩, speaks, rfl⟩ := Option.map_eq_some_iff.mp known
    exact ⟨socket, listener, named, speaks⟩
  have seats : cabled.service.hub.Seats fun key =>
      (cabled.keys.get? key).bind cabled.service.connectionAt? := by
    constructor
    · intro key id its
      obtain ⟨_, _, _, speaks⟩ := ends its
      exact underway.steady.member speaks
    · intro key other id one two
      obtain ⟨socket, _, named, speaks⟩ := ends one
      obtain ⟨_, _, alsoNamed, alsoSpeaks⟩ := ends two
      obtain rfl := underway.steady.unique speaks alsoSpeaks
      exact underway.apart named alsoNamed
    · intro id attached
      obtain ⟨socket, listener, speaks⟩ := underway.accounted id attached
      have known := Service.connectionAt?_of_speakerAt? speaks
      cases found : cabled.cables.get? socket with
      | none =>
        rw [Service.speakerAt?, underway.unserved found] at speaks
        cases speaks
      | some cable =>
        obtain ⟨key, named⟩ := rests.named found
        exact ⟨key, by rw [named, Option.bind_some, known]⟩
  have same : ∀ key, (circle.mailboxes.get? key).isSome =
      ((cabled.keys.get? key).bind cabled.service.connectionAt?).isSome := by
    intro key
    rw [← underway.keyed]
    cases named : cabled.keys.get? key with
    | none => rfl
    | some socket =>
      obtain ⟨_, _, _, _, resting, _⟩ := rests.resting named
      rw [Option.bind_some, Service.connectionAt?_of_speakerAt? (speakerAt?_of_peer resting.peer)]
      rfl
  rw [Cabled.view, Circle.view, View.mk.injEq]
  refine ⟨seats.peerCount circle.distinct same, funext fun key => ?_⟩
  cases found : cabled.cable? key with
  | none => exact (rests.cable?_eq_none.mp found).symm
  | some its =>
    obtain ⟨socket, cable⟩ := its
    obtain ⟨_, _, id, line, resting, mailbox⟩ := rests.of_cable? found
    rw [Option.map_some, mailbox, resting.link]

/-! ## Each step -/

/-- A cable at rest when a message is sent at another socket. -/
theorem stands (rests : Rests calendar circle cabled)
    (found : cabled.cables.get? socket = some cable) {next : Circle} {sender : Nat}
    {message? : Option Inbound}
    (elsewhere : ownAt sender message? socket = none)
    (mailboxes : ∀ {key messages}, cabled.keys.get? key = some socket →
      circle.mailboxes.get? key = some messages →
      next.mailboxes.get? key = some (messages ++ (dueAt sender message? socket).toList)) :
    Stands next sender message? cabled.keys cabled.service socket cable := by
  obtain ⟨key, named⟩ := rests.named found
  obtain ⟨its, id, line, same, resting, mailbox⟩ := rests.resting named
  cases found.symm.trans same
  exact .held resting.isHeld named (mailboxes named mailbox) elsewhere rfl (resting.conveys _)

theorem send (rests : Rests calendar circle cabled)
    (found : cabled.cable? key = some (socket, cable)) (message : Inbound)
    (readable : ∀ moment, staysReadable (message, calendar moment) = true) :
    Underway calendar (circle.tell key message) socket (some message)
      (cabled.set cabled.service socket { cable with outbox := cable.outbox.push message }) := by
  obtain ⟨_, underway⟩ := rests.underway
  obtain ⟨named, its, id, line, resting, mailbox⟩ := rests.of_cable? found
  have told : ∀ other, (circle.tell key message).mailboxes.get? other =
      (circle.mailboxes.get? other).map fun messages =>
        if other = key then messages else messages ++ [message] :=
    Roster.get?_mapItems circle.mailboxes _
  have written : unread { cable with outbox := cable.outbox.push message } =
      TcpLink.encode message := by
    have nothing := resting.nothing
    rw [unread] at nothing
    rw [unread, Fifo.toList_push, List.flatMap_append, ← List.append_assoc, nothing]
    simp
  have more : TcpLink.encode message ≠ [] := by
    obtain ⟨body, parts, _⟩ : IsLine (TcpLink.encode message) := isLine_encodeLine message
    rw [parts]
    simp
  apply underway.change its underway.steady underway.accounted (fun _ => rfl)
  · rfl
  · intro other
    rw [told, Option.isSome_map]
  · intro _
    exact ⟨key, named⟩
  · rintro _ ⟨⟩
    exact readable
  · have kept : (circle.tell key message).mailboxes.get? key =
        some (line.mailbox.messages.map Stamped.inbound ++ (none : Option Inbound).toList) := by
      rw [told, mailbox, Option.map_some, if_pos rfl, Option.toList_none, List.append_nil]
    have parts : TcpLink.encode message =
        [] ++ unread { cable with outbox := cable.outbox.push message } := written.symm
    exact .held resting.isHeld named kept (if_pos rfl) (if_pos rfl)
      (.connected resting.accepted (.busy resting.peer parts (written ▸ more))
        (resting.downlink.congr rfl rfl))
  · intro other there different alsoFound
    apply rests.stands alsoFound (if_neg different)
    intro another messages alsoNamed holds
    have foreign : another ≠ key := by
      rintro rfl
      exact different (Option.some.inj (alsoNamed.symm.trans named))
    rw [told, holds, Option.map_some, if_neg foreign, dueAt, if_neg different]
    rfl

/-- A receive finds the first message of the mailbox, or that it has none. -/
theorem poll (rests : Rests calendar circle cabled)
    (found : cabled.cable? key = some (socket, cable)) :
    (∃ message rest next, cabled.poll key = (some (.message message), next) ∧
      circle.mailboxes.get? key = some (message.inbound :: rest) ∧
      ∃ origin, Underway calendar (circle.put key rest) origin none next) ∨
    ((cabled.poll key).1 = none ∧ circle.mailboxes.get? key = some []) := by
  obtain ⟨origin, underway⟩ := rests.underway
  obtain ⟨named, its, id, line, resting, mailbox⟩ := rests.of_cable? found
  have goesOn : line.senderGone = false := by
    simpa using (Bool.and_eq_true_iff.mp resting.isOpen).1
  rw [Cabled.poll, found]
  simp only [resting.link]
  rcases line.mailbox.poll_cases line.senderGone with
    ⟨message, rest, polled, front, held⟩ | ⟨empty, polled⟩
  · refine .inl ⟨message, rest.messages.map Stamped.inbound, _, by rw [polled], ?_, origin, ?_⟩
    · rw [mailbox, front, List.map_cons]
    have left : Resting cabled.service socket
        { cable with link := { line := { line with mailbox := rest } } } id
        { line with mailbox := rest } :=
      { resting with
        link := rfl
        isOpen := by
          rw [Line.isOpen, held]
          exact resting.isOpen }
    have others : ∀ {other}, other ≠ key →
        (circle.put key (rest.messages.map Stamped.inbound)).mailboxes.get? other =
          circle.mailboxes.get? other := by
      intro other different
      exact (Roster.get?_put ..).trans (if_neg different)
    apply underway.change its underway.steady underway.accounted (fun _ => rfl)
    · rfl
    · intro other
      by_cases own : other = key
      · rw [own, mailbox, Circle.put, Roster.get?_put_self]
        rfl
      · rw [others own]
    · intro isPending
      cases isPending
    · intro message its
      cases its
    · refine .held resting.isHeld named ?_ (ite_self none) (ite_self none) (left.conveys none)
      rw [Circle.put, Roster.get?_put_self, Option.toList_none, List.append_nil]
    · intro other there different alsoFound
      apply (underway.stands alsoFound).rename
      intro another alsoNamed
      refine ⟨alsoNamed, others ?_⟩
      rintro rfl
      exact different (Option.some.inj (alsoNamed.symm.trans named))
  · refine .inr ⟨?_, ?_⟩
    · rw [polled, goesOn]
      rfl
    · rw [mailbox, empty, List.map_nil]

theorem unplug (rests : Rests calendar circle cabled) (key : Nat) :
    (∃ origin, Underway calendar (circle.erase key) origin none (cabled.unplug key)) ∧
      (cabled.unplug key).keys.get? key = none := by
  obtain ⟨origin, underway⟩ := rests.underway
  cases found : cabled.cable? key with
  | none =>
    have absent := rests.cable?_eq_none.mp found
    have unnamed : cabled.keys.get? key = none := by
      rw [← Option.not_isSome_iff_eq_none, underway.keyed, absent]
      exact Bool.false_ne_true
    have same : ∀ other, (circle.erase key).mailboxes.get? other =
        circle.mailboxes.get? other := by
      intro other
      rw [Circle.erase, Roster.get?_erase]
      split
      · rename_i own
        rw [own, absent]
      · rfl
    rw [Cabled.unplug, found]
    refine ⟨⟨origin, { underway with keyed := ?_, stands := ?_ }⟩, unnamed⟩
    · intro other
      rw [same]
      exact underway.keyed other
    · intro socket cable its
      exact (underway.stands its).rename fun named => ⟨named, same _⟩
  | some its =>
    obtain ⟨socket, cable⟩ := its
    obtain ⟨named, its, id, line, resting, _⟩ := rests.of_cable? found
    obtain ⟨toHub, _⟩ := List.append_eq_nil_iff.mp resting.nothing
    have nothing : unread { cable with outbox := {}, isHeld := false } = [] := by
      rw [unread, toHub]
      rfl
    rw [Cabled.unplug, found]
    refine ⟨⟨origin, ?_⟩, Roster.get?_erase_self ..⟩
    exact underway.release named its rfl ⟨resting.accepted, nothing, id, resting.peer⟩

end Rests

/-! ## Runs -/

theorem Rests.act (rests : Rests calendar circle cabled) (still : Settled calendar cabled)
    {step : LinkStep} {answer : Answer} {acted : Cabled}
    (readable : ∀ {key message}, step = .send key message → ∀ moment,
      staysReadable (message, calendar moment) = true)
    (act : Performs calendar cabled step answer acted) :
    answer.untimed = (circle.step step).1 ∧
      ∃ origin pending, Underway calendar (circle.step step).2 origin pending acted := by
  obtain ⟨origin, underway⟩ := rests.underway
  cases act with
  | connect key =>
    obtain ⟨⟨origin, left⟩, unnamed⟩ := rests.unplug key
    refine ⟨rfl, origin, none, left.dial unnamed fun other => ?_⟩
    rw [Circle.step, Circle.put, Roster.get?_put, Circle.erase, Roster.get?_erase]
    split
    · rfl
    · rfl
  | @send key socket cable message found accepts =>
    obtain ⟨_, _, _, _, _, mailbox⟩ := rests.of_cable? found
    have known : circle.mailboxes.contains key = true := by
      rw [Roster.contains, mailbox]
      rfl
    rw [Circle.step, if_pos known]
    exact ⟨rfl, _, _, rests.send found message (readable rfl)⟩
  | refused message found refuses =>
    obtain ⟨_, _, _, line, resting, _⟩ := rests.of_cable? found
    rw [resting.link, resting.accepts] at refuses
    cases refuses
  | @unsent key message absent =>
    have unknown : ¬circle.mailboxes.contains key = true := by
      rw [Roster.contains, rests.cable?_eq_none.mp absent]
      exact Bool.false_ne_true
    rw [Circle.step, if_neg unknown]
    exact ⟨rfl, origin, none, underway⟩
  | receive held receives =>
    obtain ⟨⟨socket, cable⟩, found⟩ := Option.isSome_iff_exists.mp held
    rcases rests.poll found with ⟨message, rest, next, polled, front, left⟩ | ⟨nothing, empty⟩
    · simp only [Circle.step, front]
      cases receives with
      | found its =>
        cases its.symm.trans polled
        obtain ⟨origin, left⟩ := left
        exact ⟨rfl, origin, none, left⟩
      | timedOut nothing | waits nothing =>
        rw [polled] at nothing
        cases nothing
    · simp only [Circle.step, empty]
      cases receives with
      | found its =>
        rw [its] at nothing
        cases nothing
      | timedOut => exact ⟨rfl, origin, none, underway⟩
      | waits _ _ work => exact absurd work (still _)
  | unreceived bound absent =>
    simp only [Circle.step, rests.cable?_eq_none.mp absent]
    exact ⟨rfl, origin, none, underway⟩
  | drop key =>
    obtain ⟨⟨origin, left⟩, _⟩ := rests.unplug key
    exact ⟨congrArg Answer.holds (underway.keyed key), origin, none, left⟩

/-- Steps that are each followed by all that is under way do to the links what they do to a
circle. -/
theorem Rests.run (rests : Rests calendar circle cabled) (still : Settled calendar cabled)
    {steps : List LinkStep} {trace : List (Answer × Cabled)}
    (readable : ∀ {key message}, .send key message ∈ steps → ∀ moment,
      staysReadable (message, calendar moment) = true)
    (run : Run calendar cabled steps trace) :
    (trace.map fun after => (after.1.untimed, after.2.view)) = circle.run steps := by
  induction run generalizing circle with
  | nil => rfl
  | cons act work settled _ ih =>
    obtain ⟨answer, _, _, underway⟩ := rests.act still
      (fun same => readable (List.mem_cons.mpr (.inl same.symm))) act
    obtain ⟨_, last⟩ := underway.works work
    have next := last.rests settled
    rw [List.map_cons, ih next settled fun member => readable (List.mem_cons_of_mem _ member),
      answer, next.view]
    rfl

private theorem settled_empty (calendar : Calendar) : Settled calendar {} := by
  intro next work
  cases work with
  | accept _ found | write found | reachHub _ found | forward found | reachLink found
  | hangUp found | refuse found | leave _ found => cases found

private theorem rests_empty (calendar : Calendar) : Rests calendar ∅ {} where
  underway :=
    ⟨0,
      { steady := Service.steady_empty
        accounted := nofun
        unserved := fun _ => rfl
        fresh := fun _ => rfl
        apart := nofun
        keyed := fun _ => rfl
        plugged := nofun
        stands := nofun
        sent := nofun
        readable := nofun }⟩
  resting := nofun
  named := nofun

/-- A party with links over TCP gets the answers that it would get with links in the hub's own
process, and finds as many peers and the same messages in its mailboxes after each step, but for the
times of the messages. All that is under way settles after each step, whatever happens first and
however the bytes are cut, and whatever the moments at which the hub stamps messages. A stamped line
has to fit, and so does the shorter line that a link writes. -/
theorem runs_as_in_process (calendar clock : Calendar) (steps : List LinkStep)
    (fits : ∀ key message, .send key message ∈ steps → ∀ moment,
      (TcpPeer.encode (message.stamp (calendar moment))).length ≤ maxLineBytes) :
    (∃ trace, Run calendar {} steps trace) ∧
    (WellFounded fun next cabled => Work calendar cabled next) ∧
    ∀ trace, Run calendar {} steps trace →
      (trace.map fun after => (after.1.untimed, after.2.view)) =
        (Session.run clock {} (steps.map LinkStep.inProcess)).map fun after =>
          (after.1.untimed, after.2.view) := by
  refine ⟨exists_run calendar {} steps, settles calendar, fun trace run => ?_⟩
  rw [Circle.run_session]
  apply (rests_empty calendar).run (settled_empty calendar) _ run
  intro key message member moment
  exact (staysReadable_iff (message, calendar moment)).mpr (fits key message member moment)

/-- Two links, of which one is replaced and then dropped, and messages that have to be escaped. -/
def visit : List LinkStep :=
  [.connect 1, .connect 2, .send 1 ⟨"é", "say \"hi\"\nand go"⟩, .receive 2 50, .receive 1 50,
    .connect 1, .send 2 ⟨"b", ""⟩, .receive 1 0, .drop 1, .send 1 ⟨"é", "gone"⟩, .receive 2 9]

theorem runs_as_in_process_visit :
    ∃ trace, Run (fun _ => "2025-01-01T00:00:00Z") {} visit trace ∧
      (trace.map fun after => (after.1.untimed, after.2.view.peers)) =
        [(.done, 1), (.done, 2), (.done, 2),
          (.received (.message ⟨"é", "say \"hi\"\nand go", ""⟩), 2), (.received .timedOut, 2),
          (.done, 2), (.done, 2), (.received (.message ⟨"b", "", ""⟩), 2), (.holds true, 1),
          (.missing, 1), (.received .timedOut, 1)] := by
  have each : (visit.all fun
      | .send _ message => decide
          ((TcpPeer.encode (message.stamp "2025-01-01T00:00:00Z")).length ≤ maxLineBytes)
      | _ => true) = true := by
    decide +kernel
  have fits : ∀ key message, .send key message ∈ visit → Nat →
      (TcpPeer.encode (message.stamp "2025-01-01T00:00:00Z")).length ≤ maxLineBytes := by
    intro key message member _
    have fitting := List.all_eq_true.mp each _ member
    exact of_decide_eq_true fitting
  obtain ⟨⟨trace, run⟩, _, same⟩ :=
    runs_as_in_process (fun _ => "2025-01-01T00:00:00Z") (fun _ => "") visit fits
  have shown := congrArg (List.map fun seen : Answer × View => (seen.1, seen.2.peers))
    (same trace run)
  rw [List.map_map, List.map_map] at shown
  refine ⟨trace, run, shown.trans ?_⟩
  decide +kernel

end Cabled

end ChatHub
