import ChatHub.Net.TcpLink
import ChatHub.Proofs.Net.Cable
import ChatHub.Proofs.Net.Relay
import ChatHub.Proofs.Net.Steady
/-!
What is under way between links over TCP and their hub, against the circle of links that it comes
to. Every message is in one of the queues, buffers and sockets between the link that sends it and
those that get it, in order. Main statement: `Underway.works`, by which nothing is lost on the way.
-/

set_option autoImplicit false

namespace ChatHub

open Wire

/-! ## Lines in chunks -/

/-- The front of a line is held until the rest is there. -/
theorem Wire.IsLine.feed_front {line front rest : List UInt8} (isLine : IsLine line)
    (fits : line.length ≤ maxLineBytes) (parts : line = front ++ rest) (more : rest ≠ []) :
    (LineBuffer.feed {} front).2 = [] := by
  have size : line.length = front.length + rest.length := by rw [parts, List.length_append]
  have longer := List.length_pos_iff.mpr more
  have noFeed : lineFeed ∉ front := by
    have taken := isLine.not_mem_take (show front.length < line.length by omega)
    rwa [parts, List.take_left] at taken
  rw [LineBuffer.feed_open noFeed {} (by simp only; omega)]

/-- A chunk of a line completes it or only adds to what is held. -/
theorem Wire.IsLine.feed_chunk {line read chunk rest : List UInt8} (isLine : IsLine line)
    (fits : line.length ≤ maxLineBytes) (parts : line = read ++ (chunk ++ rest))
    (nonempty : chunk ≠ []) :
    (LineBuffer.feed {} read).1.feed chunk =
      if rest = [] then ({}, [line]) else ((LineBuffer.feed {} (read ++ chunk)).1, []) := by
  have before := isLine.feed_front fits parts (List.append_ne_nil_of_left_ne_nil nonempty rest)
  have both := LineBuffer.feed_append {} read chunk
  rw [before, List.nil_append] at both
  by_cases last : rest = []
  · rw [if_pos last]
    rw [last, List.append_nil] at parts
    have whole := LineBuffer.feed_piece (isLine.isPiece fits) []
    rw [List.append_nil, parts, both, ← parts] at whole
    exact whole
  · rw [if_neg last]
    rw [← List.append_assoc] at parts
    have front := isLine.feed_front fits parts last
    rw [both] at front ⊢
    exact Prod.ext rfl front

namespace TcpLink

/-- What a link does with pieces has nothing to do with what it holds behind them. -/
theorem foldl_takePiece_buffer (held buffer : LineBuffer) (line : Line)
    (pieces : List (List UInt8)) :
    pieces.foldl takePiece { buffer, line } =
      let left := pieces.foldl takePiece { buffer := held, line }
      if left.isReading then { left with buffer } else left := by
  induction pieces generalizing line with
  | nil => rfl
  | cons piece rest ih =>
    simp only [List.foldl_cons, takePiece, if_true]
    cases readPiece stampedFormat piece with
    | none => exact ih line
    | some outcome =>
      cases outcome with
      | ok message => exact ih (line.deliver message)
      | error cause =>
        have stopped : stopReading { buffer, line } = stopReading { buffer := held, line } := rfl
        simp only [stopped, foldl_takePiece_stopped]
        rfl

private theorem buffer_foldl_takePiece (held : LineBuffer) (line : Line)
    (pieces : List (List UInt8))
    (reads : (pieces.foldl takePiece { buffer := held, line }).isReading = true) :
    (pieces.foldl takePiece { buffer := held, line }).buffer = held := by
  rw [foldl_takePiece_buffer held held line pieces, if_pos reads]

private theorem foldl_takePiece_idle (link : TcpLink) (idle : ¬link.isReading = true)
    (pieces : List (List UInt8)) : pieces.foldl takePiece link = link := by
  induction pieces with
  | nil => rfl
  | cons piece rest ih => rw [List.foldl_cons, takePiece, if_neg idle, ih]

theorem receive_append (link : TcpLink) (first second : List UInt8) :
    link.receive (first ++ second) = (link.receive first).receive second := by
  obtain ⟨held, line, isReading⟩ := link
  cases isReading with
  | false => rfl
  | true =>
    have early := foldl_takePiece_buffer (held.feed first).1
      ((held.feed first).1.feed second).1 line (held.feed first).2
    have kept := buffer_foldl_takePiece (held.feed first).1 line (held.feed first).2
    simp only [receive, if_true, LineBuffer.feed_append, List.foldl_append, early]
    generalize (held.feed first).2.foldl takePiece
      { buffer := (held.feed first).1, line } = left at kept ⊢
    by_cases reads : left.isReading = true
    · rw [if_pos reads, if_pos reads, kept reads]
    · rw [if_neg reads, if_neg reads]
      exact foldl_takePiece_idle left reads _

end TcpLink

namespace Cabled

/-! ## One cable -/

/-- What a link has sent and the hub has not read. -/
def unread (cable : Cable) : List UInt8 :=
  cable.toHub ++ cable.outbox.toList.flatMap TcpLink.encode

variable {service later : Service} {socket : Nat} {cable changed : Cable} {id : ConnectionId}

/-- The way to the hub, with the message that is on it. -/
inductive Uplink (service : Service) (socket : Nat) (cable : Cable) (id : ConnectionId) :
    Option Inbound → Prop where
  | idle (peer : service.sockets.get? socket = some (.tcp { connection := id }))
      (nothing : unread cable = []) : Uplink service socket cable id none
  | busy {message : Inbound} {read : List UInt8}
      (peer : service.sockets.get? socket =
        some (.tcp { connection := id, buffer := (LineBuffer.feed {} read).1 }))
      (parts : TcpLink.encode message = read ++ unread cable) (rest : unread cable ≠ []) :
      Uplink service socket cable id (some message)

/-- The way back: the messages in the mailbox, those whose lines are on the way, of which the link
has read some bytes, and those that the hub has not forwarded. -/
structure Downlink (queue : List Stamped) (cable : Cable) (stream : List Inbound) (line : Line)
    (relayed : List (Inbound × String)) (got : List UInt8) : Prop where
  link : cable.link = ({ line } : TcpLink).receive got
  parts : got ++ cable.toLink = relayed.flatMap relayedLine
  readable : relayed.all staysReadable = true
  isOpen : line.isOpen = true
  accepts : line.accepts = true
  stream : line.mailbox.messages.map Stamped.inbound ++ relayed.map Prod.fst ++
    queue.map Stamped.inbound = stream
  waiting : ∀ message ∈ queue, staysReadable (message.inbound, message.timestamp) = true

/-- A cable whose link is held, with the message that it has sent, the one that it is to get, and
all that its mailbox will hold. -/
inductive Conveys (service : Service) (socket : Nat) (cable : Cable) :
    Option Inbound → Option Inbound → List Inbound → Prop where
  | dialled (new : cable = {}) (unserved : service.sockets.get? socket = none) :
      Conveys service socket cable none none []
  | connected {id : ConnectionId} {own due : Option Inbound} {stream : List Inbound} {line : Line}
      {relayed : List (Inbound × String)} {got : List UInt8} (accepted : cable.isAccepted = true)
      (uplink : Uplink service socket cable id own)
      (downlink : Downlink (service.hub.queued id) cable stream line relayed got) :
      Conveys service socket cable own due (stream ++ due.toList)

/-- A cable whose link was dropped. The hub has seen everything but its end. -/
structure Leaves (service : Service) (socket : Nat) (cable : Cable) : Prop where
  accepted : cable.isAccepted = true
  nothing : unread cable = []
  peer : ∃ id, service.sockets.get? socket = some (.tcp { connection := id })

/-- The message that one socket sends. -/
def ownAt (origin : Nat) (pending : Option Inbound) (socket : Nat) : Option Inbound :=
  if socket = origin then pending else none

/-- The message that all other sockets get. -/
def dueAt (origin : Nat) (pending : Option Inbound) (socket : Nat) : Option Inbound :=
  if socket = origin then none else pending

inductive Stands (circle : Circle) (origin : Nat) (pending : Option Inbound)
    (keys : Roster Nat Nat) (service : Service) (socket : Nat) (cable : Cable) : Prop where
  | held {key : Nat} {queue : List Inbound} {own due : Option Inbound}
      (isHeld : cable.isHeld = true) (named : keys.get? key = some socket)
      (mailbox : circle.mailboxes.get? key = some queue)
      (sends : ownAt origin pending socket = own) (gets : dueAt origin pending socket = due)
      (conveys : Conveys service socket cable own due queue)
  | dropped (left : cable.isHeld = false) (leaves : Leaves service socket cable)

/-! ## All cables -/

/-- All that is under way, and the circle that it comes to. At most one message is pending, sent at
one socket. -/
structure Underway (calendar : Calendar) (circle : Circle) (origin : Nat)
    (pending : Option Inbound) (cabled : Cabled) : Prop where
  steady : cabled.service.Steady
  accounted : cabled.service.Accounted
  unserved : ∀ {socket}, cabled.cables.get? socket = none →
    cabled.service.sockets.get? socket = none
  fresh : ∀ {socket}, cabled.nextSocket ≤ socket → cabled.cables.get? socket = none
  apart : ∀ {key other socket}, cabled.keys.get? key = some socket →
    cabled.keys.get? other = some socket → key = other
  keyed : ∀ key, (cabled.keys.get? key).isSome = (circle.mailboxes.get? key).isSome
  plugged : ∀ {key socket}, cabled.keys.get? key = some socket →
    ∃ cable, cabled.cables.get? socket = some cable ∧ cable.isHeld = true
  stands : ∀ {socket cable}, cabled.cables.get? socket = some cable →
    Stands circle origin pending cabled.keys cabled.service socket cable
  sent : pending.isSome = true → ∃ key, cabled.keys.get? key = some origin
  readable : ∀ message, pending = some message → ∀ moment,
    staysReadable (message, calendar moment) = true

section Elsewhere

variable {circle : Circle} {origin : Nat} {pending after : Option Inbound} {keys : Roster Nat Nat}
  {messages : List Stamped}

theorem speakerAt?_of_peer {peer : TcpPeer}
    (found : service.sockets.get? socket = some (.tcp peer)) :
    service.speakerAt? socket = some (peer.connection, .tcp) := by
  rw [Service.speakerAt?, found]
  rfl

theorem Uplink.speaks {own : Option Inbound} (uplink : Uplink service socket cable id own) :
    service.speakerAt? socket = some (id, .tcp) := by
  cases uplink with
  | idle peer => exact speakerAt?_of_peer peer
  | busy peer => exact speakerAt?_of_peer peer

theorem Uplink.congr {own : Option Inbound} (uplink : Uplink service socket cable id own)
    (same : later.sockets.get? socket = service.sockets.get? socket)
    (alike : unread changed = unread cable) : Uplink later socket changed id own := by
  cases uplink with
  | idle peer nothing => exact .idle (same.trans peer) (alike.trans nothing)
  | busy peer parts rest => exact .busy (same.trans peer) (alike ▸ parts) (alike ▸ rest)

private theorem eq_of_ownAt {message : Inbound} (own : ownAt origin pending socket = some message) :
    socket = origin ∧ pending = some message := by
  unfold ownAt at own
  split at own
  · exact ⟨‹_›, own⟩
  · cases own

/-- A chunk completes the line that is on its way, and its message is published, or only adds to
what the hub holds. -/
theorem Uplink.take {own : Option Inbound} {chunk : List UInt8}
    (uplink : Uplink service socket cable id own) (timestamp : String)
    (fits : ∀ message, own = some message → (TcpLink.encode message).length ≤ maxLineBytes)
    (nonempty : chunk ≠ []) (cut : unread cable = chunk ++ unread changed) :
    ∃ message, own = some message ∧
      service.takeEvents timestamp socket (.bytes chunk) =
        publishing id timestamp (if unread changed = [] then [message] else []) false ∧
      Uplink (service.take timestamp socket (.bytes chunk)).2 socket changed id
        (if unread changed = [] then none else some message) := by
  cases uplink with
  | idle peer nothing =>
    exact absurd (List.append_eq_nil_iff.mp (cut.symm.trans nothing)).1 nonempty
  | @busy message read peer parts rest =>
    refine ⟨message, rfl, ?_⟩
    rw [cut] at parts
    have isLine : IsLine (TcpLink.encode message) := isLine_encodeLine message
    have fed := isLine.feed_chunk (fits message rfl) parts nonempty
    obtain ⟨events, next⟩ := Service.take_tcp timestamp peer
      (show ∀ listener, Arrival.bytes chunk ≠ .accepted listener from nofun)
    simp only [Arrival.adds, Arrival.sent, Arrival.isLast, List.append_nil, fed] at events next
    by_cases last : unread changed = []
    · have holds : readPiece inboundFormat (TcpLink.encode message) = some (.ok message) :=
        readPiece_encodeLine inboundFormat_lawful message
      simp only [if_pos last, List.filterMap_cons, holds, List.filterMap_nil] at events next ⊢
      exact ⟨events, .idle next last⟩
    · simp only [if_neg last, List.filterMap_nil] at events next ⊢
      exact ⟨events, .busy next (by rw [parts, List.append_assoc]) last⟩

theorem Downlink.fresh : Downlink [] { isAccepted := true } [] {} [] [] where
  link := rfl
  parts := rfl
  readable := rfl
  isOpen := rfl
  accepts := rfl
  stream := rfl
  waiting _ member := nomatch member

theorem Downlink.hears {queue : List Stamped} {stream : List Inbound} {line : Line}
    {relayed : List (Inbound × String)} {got : List UInt8}
    (downlink : Downlink queue cable stream line relayed got)
    (readable : ∀ message ∈ messages, staysReadable (message.inbound, message.timestamp) = true) :
    Downlink (queue ++ messages) cable (stream ++ messages.map Stamped.inbound) line relayed
      got where
  link := downlink.link
  parts := downlink.parts
  readable := downlink.readable
  isOpen := downlink.isOpen
  accepts := downlink.accepts
  stream := by
    rw [List.map_append, ← downlink.stream]
    simp only [List.append_assoc]
  waiting message member := by
    rcases List.mem_append.mp member with before | new
    · exact downlink.waiting message before
    · exact readable message new

theorem Downlink.congr {queue : List Stamped} {stream : List Inbound} {line : Line}
    {relayed : List (Inbound × String)} {got : List UInt8}
    (downlink : Downlink queue cable stream line relayed got) (link : changed.link = cable.link)
    (toLink : changed.toLink = cable.toLink) :
    Downlink queue changed stream line relayed got :=
  { downlink with link := link.trans downlink.link, parts := toLink ▸ downlink.parts }

/-- A cable at which nothing happens but that its connection hears something. -/
theorem Stands.hears (stands : Stands circle origin pending keys service socket cable)
    (same : later.sockets.get? socket = service.sockets.get? socket)
    (own : ownAt origin after socket = ownAt origin pending socket)
    (queued : ∀ {id listener}, service.speakerAt? socket = some (id, listener) →
      later.hub.queued id = service.hub.queued id ++ messages)
    (due : (dueAt origin pending socket).toList =
      messages.map Stamped.inbound ++ (dueAt origin after socket).toList)
    (readable : ∀ message ∈ messages, staysReadable (message.inbound, message.timestamp) = true) :
    Stands circle origin after keys later socket cable := by
  cases stands with
  | dropped left leaves =>
    obtain ⟨id, peer⟩ := leaves.peer
    exact .dropped left ⟨leaves.accepted, leaves.nothing, id, same.trans peer⟩
  | held isHeld named mailbox sends gets conveys =>
    refine .held isHeld named mailbox (own.trans sends) rfl ?_
    rw [gets] at due
    cases conveys with
    | dialled new unserved =>
      obtain ⟨_, nothing⟩ := List.append_eq_nil_iff.mp due.symm
      rw [Option.toList_eq_nil_iff.mp nothing]
      exact .dialled new (same.trans unserved)
    | connected accepted uplink downlink =>
      rw [due, ← List.append_assoc]
      have heard := downlink.hears readable
      rw [← queued uplink.speaks] at heard
      exact .connected accepted (uplink.congr same rfl) heard

theorem Stands.keeps (stands : Stands circle origin pending keys service socket cable)
    (same : later.sockets.get? socket = service.sockets.get? socket)
    (queued : ∀ {id listener}, service.speakerAt? socket = some (id, listener) →
      later.hub.queued id = service.hub.queued id) :
    Stands circle origin pending keys later socket cable := by
  apply stands.hears same rfl
  · intro id listener speaks
    exact (queued speaks).trans (List.append_nil _).symm
  · rfl
  · exact nofun

/-- The same cable, named among other keys and in another circle. -/
theorem Stands.rename {next : Circle} {renamed : Roster Nat Nat}
    (stands : Stands circle origin pending keys service socket cable)
    (same : ∀ {key}, keys.get? key = some socket → renamed.get? key = some socket ∧
      next.mailboxes.get? key = circle.mailboxes.get? key) :
    Stands next origin pending renamed service socket cable := by
  cases stands with
  | dropped left leaves => exact .dropped left leaves
  | held isHeld named mailbox sends gets conveys =>
    obtain ⟨there, alike⟩ := same named
    exact .held isHeld there (alike.trans mailbox) sends gets conveys

end Elsewhere

namespace Underway

variable {calendar : Calendar} {circle : Circle} {origin : Nat} {pending after : Option Inbound}
  {cabled : Cabled}

/-- One cable changes, and all others stand as they should. -/
theorem change (underway : Underway calendar circle origin pending cabled) {next : Circle}
    {sender : Nat} (found : cabled.cables.get? socket = some cable) (steady : later.Steady)
    (accounted : later.Accounted)
    (same : ∀ {other}, other ≠ socket →
      later.sockets.get? other = cabled.service.sockets.get? other)
    (isHeld : changed.isHeld = cable.isHeld)
    (keyed : ∀ key, (next.mailboxes.get? key).isSome = (circle.mailboxes.get? key).isSome)
    (sent : after.isSome = true → ∃ key, cabled.keys.get? key = some sender)
    (readable : ∀ message, after = some message → ∀ moment,
      staysReadable (message, calendar moment) = true)
    (here : Stands next sender after cabled.keys later socket changed)
    (elsewhere : ∀ {other cable}, other ≠ socket → cabled.cables.get? other = some cable →
      Stands next sender after cabled.keys later other cable) :
    Underway calendar next sender after (cabled.set later socket changed) where
  steady := steady
  accounted := accounted
  unserved {other} absent := by
    rw [Cabled.set, Roster.get?_put] at absent
    by_cases own : other = socket
    · rw [if_pos own] at absent
      cases absent
    · rw [if_neg own] at absent
      exact (same own).trans (underway.unserved absent)
  fresh {other} late := by
    have absent := underway.fresh late
    have different : other ≠ socket := by
      rintro rfl
      cases absent.symm.trans found
    rw [Cabled.set, Roster.get?_put, if_neg different]
    exact absent
  apart := underway.apart
  keyed key := (underway.keyed key).trans (keyed key).symm
  plugged {key other} named := by
    obtain ⟨there, its, held⟩ := underway.plugged named
    rw [Cabled.set, Roster.get?_put]
    by_cases own : other = socket
    · subst own
      cases its.symm.trans found
      exact ⟨changed, if_pos rfl, isHeld.trans held⟩
    · exact ⟨there, (if_neg own).trans its, held⟩
  stands {other there} its := by
    rw [Cabled.set, Roster.get?_put] at its
    by_cases own : other = socket
    · subst own
      rw [if_pos rfl] at its
      cases its
      exact here
    · rw [if_neg own] at its
      exact elsewhere own its
  sent := sent
  readable := readable

/-- One cable changes in the same circle, and the message that is pending may have got through. -/
theorem set (underway : Underway calendar circle origin pending cabled)
    (found : cabled.cables.get? socket = some cable) (steady : later.Steady)
    (accounted : later.Accounted)
    (same : ∀ {other}, other ≠ socket →
      later.sockets.get? other = cabled.service.sockets.get? other)
    (isHeld : changed.isHeld = cable.isHeld) (isPending : after = none ∨ after = pending)
    (here : Stands circle origin after cabled.keys later socket changed)
    (elsewhere : ∀ {other cable}, other ≠ socket → cabled.cables.get? other = some cable →
      Stands circle origin after cabled.keys later other cable) :
    Underway calendar circle origin after (cabled.set later socket changed) := by
  apply underway.change found steady accounted same isHeld (fun _ => rfl) _ _ here elsewhere
  · intro isSome
    rcases isPending with rfl | rfl
    · cases isSome
    · exact underway.sent isSome
  · intro message its
    rcases isPending with rfl | rfl
    · cases its
    · exact underway.readable message its

private theorem elsewhere_take (underway : Underway calendar circle origin pending cabled)
    (timestamp : String) {arrival : Arrival} {other : Nat} (different : other ≠ socket)
    (found : cabled.cables.get? other = some cable)
    (silent : (cabled.service.takeEvents timestamp socket arrival).filterMap Hub.Event.message? =
      []) :
    Stands circle origin pending cabled.keys
      (cabled.service.take timestamp socket arrival).2 other cable := by
  have taken := cabled.service.take_spec timestamp socket arrival
  apply (underway.stands found).keeps (taken.others other different)
  intro id listener speaks
  rw [underway.steady.queued_take timestamp arrival different speaks, silent, List.append_nil]

/-! ## Each kind of work -/

private theorem take_accepted (timestamp : String) (free : service.sockets.get? socket = none) :
    (service.take timestamp socket (.accepted .tcp)).2 =
        service.settle socket (some (.tcp { connection := service.hub.nextId }))
          service.hub.attach.2 ∧
      service.takeEvents timestamp socket (.accepted .tcp) = [.attached service.hub.nextId] := by
  simp only [Service.take, Service.takeEvents, free]
  exact ⟨rfl, rfl⟩

theorem accept (underway : Underway calendar circle origin pending cabled) (timestamp : String)
    (found : cabled.cables.get? socket = some cable) (waits : cable.isAccepted = false) :
    Underway calendar circle origin pending
      (cabled.set (cabled.service.take timestamp socket (.accepted .tcp)).2 socket
        { cable with isAccepted := true }) := by
  have taken := cabled.service.take_spec timestamp socket (.accepted .tcp)
  cases underway.stands found with
  | dropped _ leaves => cases waits.symm.trans leaves.accepted
  | held isHeld named mailbox sends gets conveys =>
    cases conveys with
    | connected accepted => cases waits.symm.trans accepted
    | dialled new unserved =>
      obtain ⟨next, events⟩ := take_accepted timestamp unserved
      have peer : (cabled.service.take timestamp socket (.accepted .tcp)).2.sockets.get? socket =
          some (.tcp { connection := cabled.service.hub.nextId }) := by
        rw [next, Service.get?_settle, if_pos rfl]
        rfl
      have nothing : (cabled.service.take timestamp socket (.accepted .tcp)).2.hub.queued
          cabled.service.hub.nextId = [] := by
        rw [next]
        exact Hub.queued_attach _
      refine underway.set found (underway.steady.take ..)
        (underway.steady.accounted_take underway.accounted _ _ _) (taken.others _) rfl (.inr rfl)
        ?_ ?_
      · refine .held isHeld named mailbox sends gets ?_
        rw [new]
        have downlink : Downlink
            ((cabled.service.take timestamp socket (.accepted .tcp)).2.hub.queued
              cabled.service.hub.nextId) { isAccepted := true } [] {} [] [] := by
          rw [nothing]
          exact .fresh
        exact .connected rfl (.idle peer rfl) downlink
      · intro other there different its
        apply underway.elsewhere_take timestamp different its
        rw [events]
        rfl

/-- A cable changes without the hub. -/
theorem local_change (underway : Underway calendar circle origin pending cabled)
    (found : cabled.cables.get? socket = some cable) (isHeld : changed.isHeld = cable.isHeld)
    (here : Stands circle origin pending cabled.keys cabled.service socket cable →
      Stands circle origin pending cabled.keys cabled.service socket changed) :
    Underway calendar circle origin pending (cabled.set cabled.service socket changed) :=
  underway.set found underway.steady underway.accounted (fun _ => rfl) isHeld (.inr rfl)
    (here (underway.stands found)) fun _ its => underway.stands its

theorem write (underway : Underway calendar circle origin pending cabled) {message : Inbound}
    {rest : Fifo Inbound} (found : cabled.cables.get? socket = some cable)
    (first : cable.outbox.pop? = some (message, rest)) :
    Underway calendar circle origin pending (cabled.set cabled.service socket
      { cable with outbox := rest, toHub := cable.toHub ++ TcpLink.encode message }) := by
  have same : unread { cable with outbox := rest, toHub := cable.toHub ++ TcpLink.encode message } =
      unread cable := by
    rw [unread, unread, Fifo.pop?_eq_some first, List.flatMap_cons, List.append_assoc]
  apply local_change underway found
  · rfl
  intro stands
  cases stands with
  | dropped left leaves =>
    exact .dropped left ⟨leaves.accepted, same.trans leaves.nothing, leaves.peer⟩
  | held isHeld named mailbox sends gets conveys =>
    refine .held isHeld named mailbox sends gets ?_
    cases conveys with
    | dialled new unserved =>
      rw [new] at first
      cases first
    | connected accepted uplink downlink =>
      exact .connected accepted (uplink.congr rfl same) (downlink.congr rfl rfl)

theorem reachLink (underway : Underway calendar circle origin pending cabled)
    {chunk rest : List UInt8} (found : cabled.cables.get? socket = some cable)
    (held : cable.isHeld = true) (cut : cable.toLink = chunk ++ rest) (nonempty : chunk ≠ []) :
    Underway calendar circle origin pending (cabled.set cabled.service socket
      { cable with toLink := rest, link := cable.link.receive chunk }) := by
  apply local_change underway found
  · rfl
  intro stands
  cases stands with
  | dropped left leaves => cases held.symm.trans left
  | held isHeld named mailbox sends gets conveys =>
    refine .held isHeld named mailbox sends gets ?_
    cases conveys with
    | dialled new unserved =>
      rw [new] at cut
      exact absurd (List.append_eq_nil_iff.mp cut.symm).1 nonempty
    | @connected id _ _ stream line relayed got accepted uplink downlink =>
      have further : Downlink (cabled.service.hub.queued id)
          { cable with toLink := rest, link := cable.link.receive chunk } stream line relayed
          (got ++ chunk) :=
        { downlink with
          link := by rw [TcpLink.receive_append, ← downlink.link]
          parts := by rw [← downlink.parts, cut, List.append_assoc] }
      exact .connected accepted (uplink.congr rfl rfl) further

theorem fits (underway : Underway calendar circle origin pending cabled) {message : Inbound}
    (its : pending = some message) : (TcpLink.encode message).length ≤ maxLineBytes := by
  have readable := of_decide_eq_true (underway.readable message its 0)
  exact Nat.le_trans (Nat.le_add_right _ _) readable

theorem reachHub (underway : Underway calendar circle origin pending cabled) (moment : Nat)
    {chunk rest : List UInt8} (found : cabled.cables.get? socket = some cable)
    (cut : cable.toHub = chunk ++ rest) (nonempty : chunk ≠ []) :
    ∃ after, Underway calendar circle origin after (cabled.set
      (cabled.service.take (calendar moment) socket (.bytes chunk)).2 socket
      { cable with toHub := rest }) := by
  have steady := underway.steady.take (calendar moment) socket (.bytes chunk)
  have accounted := underway.steady.accounted_take underway.accounted (calendar moment) socket
    (.bytes chunk)
  have taken := cabled.service.take_spec (calendar moment) socket (.bytes chunk)
  have parts : unread cable = chunk ++ unread { cable with toHub := rest } := by
    rw [unread, unread, cut, List.append_assoc]
  cases underway.stands found with
  | dropped _ leaves =>
    exact absurd (List.append_eq_nil_iff.mp (parts.symm.trans leaves.nothing)).1 nonempty
  | held isHeld named mailbox sends gets conveys =>
    cases conveys with
    | dialled new unserved =>
      rw [new] at cut
      exact absurd (List.append_eq_nil_iff.mp cut.symm).1 nonempty
    | @connected id _ _ stream line relayed got accepted uplink downlink =>
      -- Something is on its way, so this is the link that sends.
      obtain ⟨message, rfl, events, next⟩ := uplink.take (calendar moment)
        (fun message its => underway.fits (eq_of_ownAt (sends.trans its)).2) nonempty parts
      obtain ⟨rfl, rfl⟩ := eq_of_ownAt sends
      have nobody : dueAt socket (some message) socket = none := if_pos rfl
      obtain rfl := nobody.symm.trans gets
      have same := underway.steady.queued_own (calendar moment) (.bytes chunk) uplink.speaks
        next.speaks
      have kept : Downlink (cabled.service.hub.queued id) { cable with toHub := rest } stream line
          relayed got := downlink.congr rfl rfl
      rw [← same] at kept
      by_cases last : unread { cable with toHub := rest } = []
      · simp only [if_pos last] at events next
        refine ⟨none, underway.set found steady accounted (taken.others _) rfl (.inl rfl) ?_ ?_⟩
        · exact .held isHeld named mailbox (if_pos rfl) (if_pos rfl) (.connected accepted next kept)
        · intro other there different its
          have heard := messages_publishing id (calendar moment) [message] false
          rw [← events] at heard
          apply (underway.stands its).hears (taken.others other different)
          · rw [ownAt, ownAt, if_neg different, if_neg different]
          · intro other listener speaks
            exact underway.steady.queued_take (calendar moment) (.bytes chunk) different speaks
          · rw [heard, dueAt, dueAt, if_neg different, if_neg different]
            rfl
          · intro stamped member
            rw [heard, List.map_singleton, List.mem_singleton] at member
            rw [member]
            exact underway.readable message rfl moment
      · simp only [if_neg last] at events next
        refine ⟨some message, underway.set found steady accounted (taken.others _) rfl (.inr rfl)
          ?_ ?_⟩
        · exact .held isHeld named mailbox sends nobody (.connected accepted next kept)
        · intro other there different its
          apply underway.elsewhere_take (calendar moment) different its
          rw [events]
          rfl

theorem forward (underway : Underway calendar circle origin pending cabled)
    {given : ConnectionId × Parcel} (found : cabled.cables.get? socket = some cable)
    (gives : cabled.service.forward socket = ([given], later)) :
    Underway calendar circle origin pending
      (cabled.set later socket { cable with toLink := cable.toLink ++ given.2.bytes }) := by
  obtain ⟨id, listener, message, hub, speaks, polled, rfl, rfl⟩ := Service.of_forward gives
  have front := Hub.queued_of_poll polled
  have steady := underway.steady.poll polled
  have accounted : ({ cabled.service with hub } : Service).Accounted := by
    intro other attached
    have same := (Hub.Step.poll polled).isAttached underway.steady.sound.hub other
    exact underway.accounted other (same.symm.trans attached)
  refine underway.set found steady accounted (fun _ => rfl) rfl (.inr rfl) ?_ ?_
  · cases underway.stands found with
    | dropped left leaves => exact .dropped left ⟨leaves.accepted, leaves.nothing, leaves.peer⟩
    | held isHeld named mailbox sends gets conveys =>
      refine .held isHeld named mailbox sends gets ?_
      cases conveys with
      | dialled new unserved =>
        rw [Service.speakerAt?, unserved] at speaks
        cases speaks
      | @connected its _ _ stream line relayed got accepted uplink downlink =>
        cases uplink.speaks.symm.trans speaks
        have queue : cabled.service.hub.queued id = message :: hub.queued id := by
          rw [front, if_pos rfl, List.singleton_append]
        have readable := downlink.waiting message (queue ▸ List.mem_cons_self)
        have further : Downlink (hub.queued id)
            { cable with toLink := cable.toLink ++ TcpPeer.encode message } stream line
            (relayed ++ [(message.inbound, message.timestamp)]) got :=
          { downlink with
            parts := by
              rw [← List.append_assoc, downlink.parts, List.flatMap_append]
              simp [relayedLine]
              rfl
            readable := by simp [downlink.readable, readable]
            stream := by
              rw [← downlink.stream, queue]
              simp
            waiting := fun message member =>
              downlink.waiting message (queue ▸ List.mem_cons_of_mem _ member) }
        exact .connected accepted (uplink.congr rfl rfl) further
  · intro other there different its
    refine (underway.stands its).keeps rfl ?_
    intro another itsListener elsewhere
    have foreign : another ≠ id := by
      rintro rfl
      exact different (underway.steady.unique elsewhere speaks)
    rw [front another, if_neg foreign, List.nil_append]

/-- The hub gives up no cable that it has accepted. -/
theorem served (underway : Underway calendar circle origin pending cabled)
    (found : cabled.cables.get? socket = some cable) (accepted : cable.isAccepted = true) :
    cabled.service.serves socket = true := by
  have kept : ∀ {peer}, cabled.service.sockets.get? socket = some (.tcp peer) →
      cabled.service.serves socket = true := by
    intro peer its
    rw [Service.serves, Roster.contains, its]
    rfl
  cases underway.stands found with
  | dropped _ leaves =>
    obtain ⟨id, peer⟩ := leaves.peer
    exact kept peer
  | held _ _ _ _ _ conveys =>
    cases conveys with
    | dialled new unserved =>
      rw [new] at accepted
      cases accepted
    | connected _ uplink _ =>
      cases uplink with
      | idle peer => exact kept peer
      | busy peer => exact kept peer

theorem leave (underway : Underway calendar circle origin pending cabled) (moment : Nat)
    {arrival : Arrival} (found : cabled.cables.get? socket = some cable)
    (left : cable.isHeld = false) (last : arrival = .ended ∨ arrival = .broken) :
    Underway calendar circle origin pending
      { cabled with
        service := (cabled.service.take (calendar moment) socket arrival).2
        cables := cabled.cables.erase socket } := by
  have taken := cabled.service.take_spec (calendar moment) socket arrival
  obtain ⟨id, peer⟩ : ∃ id, cabled.service.sockets.get? socket =
      some (.tcp { connection := id }) := by
    cases underway.stands found with
    | dropped _ leaves => exact leaves.peer
    | held isHeld => cases left.symm.trans isHeld
  have noAccept : ∀ listener, arrival ≠ .accepted listener := by
    rcases last with rfl | rfl
    · exact nofun
    · exact nofun
  obtain ⟨events, next⟩ := Service.take_tcp (calendar moment) peer noAccept
  have ends : arrival.isLast = true ∧ Arrival.adds {} arrival = [] := by
    rcases last with rfl | rfl
    · exact ⟨rfl, rfl⟩
    · exact ⟨rfl, rfl⟩
  simp only [ends.1, ends.2, Bool.true_or, if_true] at events next
  have silent : (cabled.service.takeEvents (calendar moment) socket arrival).filterMap
      Hub.Event.message? = [] := by
    rw [events, messages_publishing]
    rfl
  have others : ∀ {other}, other ≠ socket →
      (cabled.cables.erase socket).get? other = cabled.cables.get? other := by
    intro other different
    rw [Roster.get?_erase, if_neg different]
  constructor
  · exact underway.steady.take (calendar moment) socket arrival
  · exact underway.steady.accounted_take underway.accounted (calendar moment) socket arrival
  · intro other absent
    by_cases own : other = socket
    · rw [own]
      exact next
    · exact (taken.others other own).trans (underway.unserved ((others own).symm.trans absent))
  · intro other late
    by_cases own : other = socket
    · exact (Roster.get?_erase cabled.cables socket other).trans (if_pos own)
    · exact (others own).trans (underway.fresh late)
  · exact underway.apart
  · exact underway.keyed
  · intro key other named
    obtain ⟨there, its, isHeld⟩ := underway.plugged named
    refine ⟨there, (others ?_).trans its, isHeld⟩
    rintro rfl
    cases its.symm.trans found
    cases left.symm.trans isHeld
  · intro other there its
    have different : other ≠ socket := by
      rintro rfl
      rw [Roster.get?_erase, if_pos rfl] at its
      cases its
    rw [others different] at its
    exact underway.elsewhere_take (calendar moment) different its silent
  · exact underway.sent
  · exact underway.readable

/-- Nothing that happens by itself loses anything. -/
theorem work (underway : Underway calendar circle origin pending cabled) {next : Cabled}
    (work : Work calendar cabled next) : ∃ after, Underway calendar circle origin after next := by
  cases work with
  | accept moment found waits => exact ⟨_, underway.accept (calendar moment) found waits⟩
  | write found first => exact ⟨_, underway.write found first⟩
  | reachHub moment found accepted cut nonempty =>
    exact underway.reachHub moment found cut nonempty
  | forward found gives => exact ⟨_, underway.forward found gives⟩
  | reachLink found held cut nonempty => exact ⟨_, underway.reachLink found held cut nonempty⟩
  | hangUp found accepted gone | refuse found accepted gone =>
    cases gone.symm.trans (underway.served found accepted)
  | leave moment found accepted dropped last =>
    exact ⟨_, underway.leave moment found dropped (last.imp_left And.left)⟩

theorem works (underway : Underway calendar circle origin pending cabled) {last : Cabled}
    (works : Relation.ReflTransGen (Work calendar) cabled last) :
    ∃ after, Underway calendar circle origin after last := by
  induction works with
  | refl => exact ⟨_, underway⟩
  | tail _ step ih =>
    obtain ⟨after, underway⟩ := ih
    exact underway.work step

end Underway

end Cabled

end ChatHub
