import ChatHub.Proofs.Net.Forwarding
import ChatHub.Proofs.Net.Publishing
/-!
What the connections of a service say, read off what arrives at their sockets, whatever listener
they came by: a TCP connection says what its lines hold, a WebSocket connection the texts of its
frames. Main statement: `Service.take_effect`, which describes every arrival as something that one
connection says and as its coming or leaving.
-/

set_option autoImplicit false

namespace ChatHub

open Wire

/-- Something that a connection says. -/
inductive Utterance where
  | line (origin : ConnectionId) (message : Inbound)
  | frame (origin : ConnectionId) (text : String)
  deriving DecidableEq, Repr

namespace Utterance

def origin : Utterance → ConnectionId
  | .line origin _ | .frame origin _ => origin

/-- The message that is published. A line names its sender itself. -/
def inbound : Utterance → Inbound
  | .line _ message => message
  | .frame origin text => ⟨"ws-" ++ toString origin, text⟩

end Utterance

namespace SocketEvent

def text? : SocketEvent → Option String
  | .text body => some body
  | .binary _ | .ping _ | .pong _ | .close | .failed => none

/-- The texts in front of the end of a stream. -/
def texts (events : List SocketEvent) : List String :=
  (events.takeWhile fun event => !FrameReader.isLast event).filterMap text?

theorem texts_of_isLast {event : SocketEvent} (isLast : FrameReader.isLast event = true)
    (rest : List SocketEvent) : texts (event :: rest) = [] := by
  simp [texts, isLast]

theorem texts_of_not_isLast {event : SocketEvent} (goesOn : FrameReader.isLast event = false)
    (rest : List SocketEvent) : texts (event :: rest) = event.text?.toList ++ texts rest := by
  rw [texts, List.takeWhile_cons_of_pos (by simp [goesOn]), List.filterMap_cons]
  cases event.text? <;> rfl

end SocketEvent

/-! ## A stream of frames -/

namespace SocketPeer

variable (timestamp : String)

private theorem takeAll_closed (peer : SocketPeer) (isClosed : peer.isOpen = false) (hub : Hub)
    (events : List SocketEvent) :
    peer.takeAll timestamp events hub = (peer, hub) ∧
      foldEvents (take timestamp) (takeEvents timestamp) (peer, hub) events = [] := by
  induction events with
  | nil => exact ⟨rfl, rfl⟩
  | cons event rest ih =>
    have same : take timestamp (peer, hub) event = (peer, hub) := by
      simp [take, isClosed]
    have silent : takeEvents timestamp (peer, hub) event = [] := by
      simp [takeEvents, isClosed]
    rw [takeAll, List.foldl_cons, foldEvents, same, silent]
    exact ih

theorem take_last (peer : SocketPeer) (isOpen : peer.isOpen = true) (hub : Hub)
    {event : SocketEvent} (isLast : FrameReader.isLast event = true) :
    take timestamp (peer, hub) event = peer.close hub ∧
      takeEvents timestamp (peer, hub) event = closing peer.connection := by
  cases event with
  | close | failed => simp [take, takeEvents, isOpen]
  | text _ | binary _ | ping _ | pong _ => cases isLast

private theorem take_going (peer : SocketPeer) (isOpen : peer.isOpen = true) (hub : Hub)
    {event : SocketEvent} (goesOn : FrameReader.isLast event = false) :
    ∃ next, take timestamp (peer, hub) event = (peer, next) ∧
      takeEvents timestamp (peer, hub) event =
        publishing peer.connection timestamp
          (event.text?.toList.map fun text => ⟨sender peer.connection, text⟩) false := by
  refine ⟨(take timestamp (peer, hub) event).2, ?_⟩
  cases event with
  | text body => simp [take, takeEvents, isOpen, publishing, SocketEvent.text?]
  | binary _ | ping _ | pong _ => simp [take, takeEvents, isOpen, publishing, SocketEvent.text?]
  | close | failed => cases goesOn

/-- A connection publishes the texts in front of the end of its stream, and the end closes it. -/
theorem takeAll_spec (peer : SocketPeer) (isOpen : peer.isOpen = true) (hub : Hub)
    (events : List SocketEvent) :
    foldEvents (take timestamp) (takeEvents timestamp) (peer, hub) events =
        publishing peer.connection timestamp
          ((SocketEvent.texts events).map fun text => ⟨sender peer.connection, text⟩)
          (events.any FrameReader.isLast) ∧
      (peer.takeAll timestamp events hub).1 =
        if events.any FrameReader.isLast then { peer with isOpen := false } else peer := by
  induction events generalizing hub with
  | nil => exact ⟨rfl, rfl⟩
  | cons event rest ih =>
    rw [takeAll, List.foldl_cons, foldEvents]
    cases ends : FrameReader.isLast event with
    | true =>
      -- Behind its end the stream is not looked at.
      obtain ⟨taken, now⟩ := take_last timestamp peer isOpen hub ends
      obtain ⟨same, silent⟩ :=
        takeAll_closed timestamp (peer.close hub).1 rfl (peer.close hub).2 rest
      rw [taken, now, SocketEvent.texts_of_isLast ends, List.any_cons, ends, Bool.true_or,
        if_pos rfl]
      refine ⟨?_, congrArg Prod.fst same⟩
      exact congrArg (closing peer.connection ++ ·) silent
    | false =>
      obtain ⟨next, taken, now⟩ := take_going timestamp peer isOpen hub ends
      obtain ⟨later, last⟩ := ih next
      rw [taken, now, later, SocketEvent.texts_of_not_isLast ends, List.any_cons, ends,
        Bool.false_or, List.map_append]
      refine ⟨?_, last⟩
      simp [publishing]

end SocketPeer

/-! ## Any arrival -/

namespace Service

/-- What the connection behind a socket says by an arrival there. A request that is accepted makes
a new connection, and frames may come right behind it. -/
def utterances (service : Service) (socket : Nat) (arrival : Arrival) : List Utterance :=
  match service.sockets.get? socket, arrival with
  | some (.tcp peer), arrival =>
    (beforeError (Arrival.adds peer.buffer arrival)).map (.line peer.connection)
  | some (.webSocket peer reader), .bytes bytes =>
    (SocketEvent.texts (reader.receive bytes).2).map (.frame peer.connection)
  | some (.request held), .bytes bytes =>
    match Served.splitHead? (held ++ bytes) with
    | some (head, behind) =>
      if (Handshake.answer (head.map fun byte => Char.ofNat byte.toNat)).isAccepted then
        (SocketEvent.texts (FrameReader.receive {} behind).2).map (.frame service.hub.nextId)
      else []
    | none => []
  | _, _ => []

/-- What an arrival at a socket does: nothing to the hub, or one connection says something there,
one that is known or one that comes by the arrival. In the end the connection may leave. -/
inductive Effect (service : Service) (timestamp : String) (socket : Nat) :
    List Hub.Event → List Utterance → Service → Prop
  | quiet {next : Service} :
      next.hub = service.hub → next.speakerAt? socket = service.speakerAt? socket →
        Effect service timestamp socket [] [] next
  | speaks {next : Service} {id : ConnectionId} {listener : Listener} {said : List Utterance}
      {leaves : Bool} :
      service.speakerAt? socket = some (id, listener) →
        (∀ utterance ∈ said, utterance.origin = id) →
        next.speakerAt? socket = (if leaves then none else some (id, listener)) →
          Effect service timestamp socket
            (publishing id timestamp (said.map Utterance.inbound) leaves) said next
  | joins {next : Service} {listener : Listener} {said : List Utterance} {leaves : Bool} :
      service.speakerAt? socket = none →
        (∀ utterance ∈ said, utterance.origin = service.hub.nextId) →
        next.speakerAt? socket =
          (if leaves then none else some (service.hub.nextId, listener)) →
          Effect service timestamp socket
            (.attached service.hub.nextId ::
              publishing service.hub.nextId timestamp (said.map Utterance.inbound) leaves) said next

variable {service : Service} {socket : Nat}

theorem speakerAt?_settle (served? : Option Served) (hub : Hub) :
    (service.settle socket served? hub).speakerAt? socket =
      (served?.filter Served.isOpen).bind Served.speaker? := by
  rw [speakerAt?, get?_settle, if_pos rfl]

theorem inbound_frames (id : ConnectionId) (texts : List String) :
    (texts.map (Utterance.frame id)).map Utterance.inbound =
      texts.map fun text => ⟨SocketPeer.sender id, text⟩ := by
  rw [List.map_map]
  rfl

private theorem origin_of_mem_map {α : Type} {id : ConnectionId} (say : α → Utterance)
    (same : ∀ item, (say item).origin = id) {items : List α} :
    ∀ utterance ∈ items.map say, utterance.origin = id := by
  intro utterance member
  obtain ⟨item, _, rfl⟩ := List.mem_map.mp member
  exact same item

/-- What a stream of frames does to a connection and to the side of its socket. -/
theorem takeFrames_spec (timestamp : String) {peer : SocketPeer} (isOpen : peer.isOpen = true)
    (reader : FrameReader) (bytes : List UInt8) (hub : Hub) :
    let events := (reader.receive bytes).2
    Served.framesEvents timestamp peer reader bytes hub =
        publishing peer.connection timestamp
          ((SocketEvent.texts events).map fun text => ⟨SocketPeer.sender peer.connection, text⟩)
          (events.any FrameReader.isLast) ∧
      (some (Served.takeFrames timestamp peer reader bytes hub).2.1).filter Served.isOpen =
        if events.any FrameReader.isLast then none
        else some (.webSocket peer (reader.receive bytes).1) := by
  intro events
  obtain ⟨done, left⟩ := SocketPeer.takeAll_spec timestamp peer isOpen hub events
  refine ⟨done, ?_⟩
  simp only [Served.takeFrames]
  rw [left]
  by_cases ends : events.any FrameReader.isLast = true
  · rw [if_pos ends, if_pos ends]
    rfl
  · rw [if_neg ends, if_neg ends, Option.filter_some, Served.isOpen, isOpen]
    rfl

private theorem frames_effect (timestamp : String) {peer : SocketPeer} (isOpen : peer.isOpen = true)
    (reader : FrameReader) (bytes : List UInt8) (hub : Hub) :
    let said := (SocketEvent.texts (reader.receive bytes).2).map (Utterance.frame peer.connection)
    let leaves := (reader.receive bytes).2.any FrameReader.isLast
    Served.framesEvents timestamp peer reader bytes hub =
        publishing peer.connection timestamp (said.map Utterance.inbound) leaves ∧
      ((some (Served.takeFrames timestamp peer reader bytes hub).2.1).filter Served.isOpen).bind
          Served.speaker? =
        if leaves then none else some (peer.connection, .webSocket) := by
  intro said leaves
  obtain ⟨events, left⟩ := takeFrames_spec timestamp isOpen reader bytes hub
  rw [inbound_frames, left]
  refine ⟨events, ?_⟩
  by_cases ends : leaves = true
  · rw [if_pos ends, if_pos ends]
    rfl
  · rw [if_neg ends, if_neg ends]
    rfl

theorem take_effect (timestamp : String)
    (isOpen : ∀ served, service.sockets.get? socket = some served → served.isOpen = true)
    (arrival : Arrival) :
    service.Effect timestamp socket (service.takeEvents timestamp socket arrival)
      (service.utterances socket arrival) (service.take timestamp socket arrival).2 := by
  cases found : service.sockets.get? socket with
  | none =>
    have unknown : service.speakerAt? socket = none := by rw [speakerAt?, found]; rfl
    cases arrival with
    | accepted listener =>
      simp only [takeEvents, utterances, take, found]
      cases listener with
      | webSocket =>
        refine .quiet rfl ?_
        rw [speakerAt?_settle, unknown]
        rfl
      | tcp =>
        refine @Effect.joins _ _ _ _ .tcp [] false unknown ?_ ?_
        · intro utterance member
          cases member
        · rw [speakerAt?_settle]
          rfl
    | bytes bytes | ended | broken =>
      unfold takeEvents utterances take
      rw [found]
      exact .quiet rfl rfl
  | some served =>
    have open_ := isOpen served found
    have known : service.speakerAt? socket = served.speaker? := by rw [speakerAt?, found]; rfl
    cases served with
    | tcp peer =>
      obtain ⟨id, held, _⟩ := peer
      obtain rfl : _ = true := open_
      by_cases accepts : ∃ listener, arrival = .accepted listener
      · obtain ⟨listener, rfl⟩ := accepts
        simp only [takeEvents, utterances, take, found]
        exact .quiet rfl rfl
      · obtain ⟨events, next⟩ := take_tcp timestamp found (fun listener same =>
          accepts ⟨listener, same⟩)
        let said := (beforeError (Arrival.adds held arrival)).map (Utterance.line id)
        have lines : said.map Utterance.inbound = beforeError (Arrival.adds held arrival) := by
          rw [List.map_map]
          exact List.map_id _
        have spoken : service.utterances socket arrival = said := by
          simp only [utterances, found]
          rfl
        rw [events, spoken, ← lines]
        refine .speaks known (origin_of_mem_map (.line id) fun _ => rfl) ?_
        rw [speakerAt?, next]
        cases arrival.isLast || hasError (Arrival.adds held arrival) with
        | true => rfl
        | false => rfl
    | request held =>
      cases arrival with
      | accepted listener =>
        simp only [takeEvents, utterances, take, found]
        exact .quiet rfl rfl
      | ended | broken =>
        simp only [takeEvents, utterances, take, found]
        refine .quiet rfl ?_
        rw [speakerAt?_settle, known]
        rfl
      | bytes bytes =>
        simp only [takeEvents, utterances, take, found, Served.receiveEvents, Served.receive]
        cases Served.splitHead? (held ++ bytes) with
        | none =>
          refine .quiet rfl ?_
          rw [speakerAt?_settle, known]
          rfl
        | some halves =>
          obtain ⟨head, behind⟩ := halves
          simp only
          split
          · obtain ⟨events, next⟩ := frames_effect timestamp
              (show (SocketPeer.accept service.hub).1.isOpen = true from rfl) {} behind
              (SocketPeer.accept service.hub).2
            rw [events]
            refine @Effect.joins _ _ _ _ .webSocket _ _ known
              (origin_of_mem_map (.frame _) fun _ => rfl) ?_
            rw [speakerAt?_settle]
            exact next
          · refine .quiet rfl ?_
            rw [speakerAt?_settle, known]
            rfl
    | webSocket peer reader =>
      cases arrival with
      | accepted listener =>
        simp only [takeEvents, utterances, take, found]
        exact .quiet rfl rfl
      | bytes bytes =>
        obtain ⟨events, next⟩ := frames_effect timestamp open_ reader bytes service.hub
        simp only [takeEvents, utterances, take, found, Served.receiveEvents, Served.receive]
        rw [events]
        refine .speaks known (origin_of_mem_map (.frame _) fun _ => rfl) ?_
        rw [speakerAt?_settle]
        exact next
      | ended | broken =>
        obtain ⟨taken, events⟩ := SocketPeer.take_last timestamp peer open_ service.hub
          (show FrameReader.isLast .failed = true from rfl)
        simp only [takeEvents, utterances, take, found, Served.finishEvents, Served.finish,
          Served.tearDownEvents, Served.tearDown]
        rw [events]
        refine @Effect.speaks _ _ _ _ _ _ [] true known ?_ ?_
        · intro utterance member
          cases member
        · rw [speakerAt?_settle, taken]
          rfl

end Service

end ChatHub
