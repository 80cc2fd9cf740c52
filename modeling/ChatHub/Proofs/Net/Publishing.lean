import ChatHub.Proofs.Net.Moves
import ChatHub.Proofs.Wire.Arrival
/-!
What a TCP connection does to its hub, read off the bytes that arrive at its socket. However these
are cut, and whatever happens at other sockets in between, it publishes what its lines hold up to
the first bad one, each line as soon as it is complete, and then it leaves, once. All that others
notice of it are the messages. Main statement: `Service.publishes_what_arrives`.
-/

set_option autoImplicit false

namespace ChatHub

/-! ## Acts of one connection -/

namespace Hub

/-- What a connection does to a hub, whenever it does so. -/
inductive PeerAct where
  | joined
  | said (message : Inbound)
  | left
  | abandoned
  deriving DecidableEq, Repr

/-- The act that an event is; to take messages out of a mailbox is none. -/
def Event.peerAct? : Event → Option PeerAct
  | .attached _ => some .joined
  | .published _ message => some (.said message.inbound)
  | .detached _ => some .left
  | .abandoned _ => some .abandoned
  | .took _ _ => none

/-- The acts of one connection, in order. -/
def peerActs (id : ConnectionId) : List Event → List PeerAct
  | [] => []
  | event :: rest => (if event.subject = id then event.peerAct?.toList else []) ++ peerActs id rest

/-- Whether a connection is attached behind an act, given whether it was before. -/
def PeerAct.attaches (attached : Bool) : PeerAct → Bool
  | .joined => true
  | .left => false
  | .said _ | .abandoned => attached

section Acts

variable {id : ConnectionId}

theorem peerActs_append (earlier later : List Event) :
    peerActs id (earlier ++ later) = peerActs id earlier ++ peerActs id later := by
  induction earlier with
  | nil => rfl
  | cons event rest ih => rw [List.cons_append, peerActs, ih, peerActs, List.append_assoc]

theorem peerActs_eq_nil {events : List Event}
    (others : ∀ event ∈ events, event.subject = id → event.peerAct? = none) :
    peerActs id events = [] := by
  induction events with
  | nil => rfl
  | cons event rest ih =>
    have later := ih fun other member => others other (List.mem_cons_of_mem _ member)
    rw [peerActs, later, List.append_nil]
    split
    · rename_i same
      rw [others event List.mem_cons_self same]
      rfl
    · rfl

private theorem Event.attaches_eq_foldl (attached : Bool) (event : Event) :
    event.attaches id attached =
      (if event.subject = id then event.peerAct?.toList else []).foldl
        PeerAct.attaches attached := by
  cases event with
  | attached other | detached other | abandoned other =>
    by_cases same : other = id <;> simp [attaches, subject, peerAct?, PeerAct.attaches, same]
  | published other message =>
    by_cases same : other = id <;> simp [attaches, subject, peerAct?, PeerAct.attaches, same]
  | took other messages => simp [attaches, peerAct?]

/-- Whether a connection is attached is decided by its own acts. -/
theorem Run.isAttached {first last : Hub} {events : List Event} (run : Run first events last)
    (sound : first.Sound) :
    last.isAttached id = (peerActs id events).foldl PeerAct.attaches (first.isAttached id) := by
  induction run with
  | nil => rfl
  | cons step _ ih =>
    rw [ih (step.sound sound), step.isAttached sound, peerActs, List.foldl_append,
      ← Event.attaches_eq_foldl]

end Acts

end Hub

open Hub Wire

/-! ## Pieces of a connection's input -/

/-- The chronicle of a connection that publishes messages and then may be closed. -/
def publishing (id : ConnectionId) (timestamp : String) (messages : List Inbound) (ends : Bool) :
    List Hub.Event :=
  messages.map (fun message => .published id (message.stamp timestamp)) ++
    if ends then closing id else []

theorem peerActs_publishing (id : ConnectionId) (timestamp : String) (messages : List Inbound)
    (ends : Bool) :
    peerActs id (publishing id timestamp messages ends) =
      messages.map .said ++ if ends then [.left, .abandoned] else [] := by
  induction messages with
  | nil => cases ends <;> simp [publishing, closing, peerActs, Event.subject, Event.peerAct?]
  | cons message rest ih =>
    have first : peerActs id [.published id (message.stamp timestamp)] = [.said message] := by
      simp [peerActs, Event.subject, Event.peerAct?]
    calc peerActs id (publishing id timestamp (message :: rest) ends)
        = peerActs id [.published id (message.stamp timestamp)] ++
            peerActs id (publishing id timestamp rest ends) := (peerActs_append [_] _)
      _ = .said message :: (rest.map .said ++ if ends then [.left, .abandoned] else []) := by
          rw [first, ih, List.singleton_append]

theorem messages_publishing (id : ConnectionId) (timestamp : String) (messages : List Inbound)
    (ends : Bool) :
    (publishing id timestamp messages ends).filterMap Event.message? =
      messages.map (·.stamp timestamp) := by
  have none_ : (if ends then closing id else []).filterMap Event.message? = [] := by
    cases ends <;> rfl
  rw [publishing, List.filterMap_append, none_, List.append_nil, List.filterMap_map]
  exact congrFun List.filterMap_eq_map' messages

theorem subject_publishing {id : ConnectionId} {timestamp : String} {messages : List Inbound}
    {ends : Bool} {event : Hub.Event} (member : event ∈ publishing id timestamp messages ends) :
    event.subject = id := by
  rcases List.mem_append.mp member with said | closed
  · obtain ⟨message, _, rfl⟩ := List.mem_map.mp said
    rfl
  · cases ends with
    | true => exact subject_closing closed
    | false => cases closed

namespace TcpPeer

variable (timestamp : String)

private theorem takePiece_closed (peer : TcpPeer) (isClosed : peer.isOpen = false) (hub : Hub)
    (pieces : List (List UInt8)) :
    pieces.foldl (takePiece timestamp) (peer, hub) = (peer, hub) ∧
      peer.piecesEvents timestamp hub pieces = [] := by
  induction pieces with
  | nil => exact ⟨rfl, rfl⟩
  | cons piece rest ih =>
    have same : takePiece timestamp (peer, hub) piece = (peer, hub) := by
      simp [takePiece, isClosed]
    have silent : pieceEvents timestamp (peer, hub) piece = [] := by
      simp [pieceEvents, isClosed]
    rw [List.foldl_cons, same]
    refine ⟨ih.1, ?_⟩
    rw [piecesEvents, foldEvents, same, silent]
    exact ih.2

/-- A connection publishes what its pieces hold up to a refusal, and a refusal closes it. -/
theorem takePieces_spec (peer : TcpPeer) (isOpen : peer.isOpen = true) (hub : Hub)
    (pieces : List (List UInt8)) :
    let outcomes := pieces.filterMap (readPiece inboundFormat)
    peer.piecesEvents timestamp hub pieces =
        publishing peer.connection timestamp (beforeError outcomes) (hasError outcomes) ∧
      (pieces.foldl (takePiece timestamp) (peer, hub)).1 =
        if hasError outcomes then { peer with buffer := {}, isOpen := false } else peer := by
  induction pieces generalizing hub with
  | nil => exact ⟨rfl, rfl⟩
  | cons piece rest ih =>
    rw [List.foldl_cons, piecesEvents, foldEvents]
    cases read : readPiece inboundFormat piece with
    | none =>
      have taken : takePiece timestamp (peer, hub) piece = (peer, hub) := by
        simp [takePiece, isOpen, read]
      have silent : pieceEvents timestamp (peer, hub) piece = [] := by
        simp [pieceEvents, isOpen, read]
      rw [List.filterMap_cons_none read, taken, silent]
      exact ih hub
    | some outcome =>
      rw [List.filterMap_cons_some read]
      cases outcome with
      | ok message =>
        have taken : takePiece timestamp (peer, hub) piece =
            (peer, (hub.publish peer.connection message timestamp).2) := by
          simp [takePiece, isOpen, read]
        have said : pieceEvents timestamp (peer, hub) piece =
            [.published peer.connection (message.stamp timestamp)] := by
          simp [pieceEvents, isOpen, read]
        obtain ⟨events, next⟩ := ih (hub.publish peer.connection message timestamp).2
        rw [taken, said]
        refine ⟨?_, next⟩
        exact congrArg (_ :: ·) events
      | error cause =>
        have taken : takePiece timestamp (peer, hub) piece = peer.close hub := by
          simp [takePiece, isOpen, read]
        have said : pieceEvents timestamp (peer, hub) piece = closing peer.connection := by
          simp [pieceEvents, isOpen, read]
        -- Behind a refusal the connection is closed, and the other pieces are not looked at.
        obtain ⟨same, silent⟩ := takePiece_closed timestamp (peer.close hub).1 rfl
          (peer.close hub).2 rest
        rw [taken, said]
        refine ⟨?_, congrArg Prod.fst same⟩
        exact congrArg (closing peer.connection ++ ·) silent

theorem receive_spec (peer : TcpPeer) (isOpen : peer.isOpen = true) (chunk : List UInt8)
    (hub : Hub) :
    let outcomes := (peer.buffer.feed chunk).2.filterMap (readPiece inboundFormat)
    peer.receiveEvents timestamp chunk hub =
        publishing peer.connection timestamp (beforeError outcomes) (hasError outcomes) ∧
      (peer.receive timestamp chunk hub).1 =
        if hasError outcomes then { peer with buffer := {}, isOpen := false }
        else { peer with buffer := (peer.buffer.feed chunk).1 } := by
  rw [receiveEvents, receive, if_pos isOpen, if_pos isOpen]
  exact takePieces_spec timestamp { peer with buffer := (peer.buffer.feed chunk).1 } isOpen hub
    (peer.buffer.feed chunk).2

theorem finish_spec (peer : TcpPeer) (isOpen : peer.isOpen = true) (hub : Hub) :
    let outcomes := peer.buffer.finish.toList.filterMap (readPiece inboundFormat)
    peer.finishEvents timestamp hub =
        publishing peer.connection timestamp (beforeError outcomes) true ∧
      (peer.finish timestamp hub).1.isOpen = false := by
  obtain ⟨events, next⟩ := takePieces_spec timestamp peer isOpen hub peer.buffer.finish.toList
  simp only [finishEvents, finish, if_pos isOpen, events, next]
  cases refused : hasError (peer.buffer.finish.toList.filterMap (readPiece inboundFormat)) with
  | true => exact ⟨by simp [publishing], by simp⟩
  | false => exact ⟨by simp [publishing, isOpen], by simp [isOpen, close]⟩

end TcpPeer

/-! ## Arrivals at one socket -/

namespace Arrival

/-- Whether nothing arrives behind it. -/
def isLast : Arrival → Bool
  | .ended | .broken => true
  | .accepted _ | .bytes _ => false

/-- The bytes that arrive before the far side is done, however they are cut. -/
def sent : List Arrival → List UInt8
  | .bytes chunk :: rest => chunk ++ sent rest
  | .accepted _ :: rest => sent rest
  | .ended :: _ | .broken :: _ | [] => []

/-- How the far side was done. -/
def ending? (arrivals : List Arrival) : Option Arrival :=
  arrivals.find? isLast

/-- What the bytes say: at the end of the input all lines count, and before it those that are
complete. -/
def outcomes (arrivals : List Arrival) : List (Except ReadError Inbound) :=
  if ending? arrivals = some .ended then readAll inboundFormat (sent arrivals)
  else ((pieces (sent arrivals)).filter isComplete).filterMap (readPiece inboundFormat)

/-- The messages up to the first bad line. -/
def said (arrivals : List Arrival) : List Inbound :=
  beforeError (outcomes arrivals)

/-- Whether the connection is over: the far side is done, or a line was bad. -/
def isOver (arrivals : List Arrival) : Bool :=
  (ending? arrivals).isSome || hasError (outcomes arrivals)

/-- The acts of a connection that was accepted and at whose socket this has arrived since. -/
def peerActsAfter (arrivals : List Arrival) : List PeerAct :=
  .joined :: ((said arrivals).map .said ++ if isOver arrivals then [.left, .abandoned] else [])

/-- The bytes that are held after some arrivals. -/
def buffer (arrivals : List Arrival) : LineBuffer :=
  (LineBuffer.feed {} (sent arrivals)).1

/-- What an arrival adds to the outcomes, given the bytes that were held before. -/
def adds (held : LineBuffer) : Arrival → List (Except ReadError Inbound)
  | .bytes chunk => (held.feed chunk).2.filterMap (readPiece inboundFormat)
  | .ended => held.finish.toList.filterMap (readPiece inboundFormat)
  | .accepted _ | .broken => []

section Snoc

variable {arrivals : List Arrival}

theorem ending?_snoc (arrivals : List Arrival) (arrival : Arrival) :
    ending? (arrivals ++ [arrival]) =
      (ending? arrivals).or (if arrival.isLast then some arrival else none) := by
  rw [ending?, List.find?_append]
  cases arrival <;> rfl

theorem sent_snoc_of_ended (ended : (ending? arrivals).isSome = true) (arrival : Arrival) :
    sent (arrivals ++ [arrival]) = sent arrivals := by
  induction arrivals with
  | nil => cases ended
  | cons first rest ih =>
    cases first with
    | bytes chunk => exact congrArg (chunk ++ ·) (ih ended)
    | accepted listener => exact ih ended
    | ended | broken => rfl

theorem sent_snoc (open_ : ending? arrivals = none) (arrival : Arrival) :
    sent (arrivals ++ [arrival]) = sent arrivals ++ sent [arrival] := by
  induction arrivals with
  | nil => rfl
  | cons first rest ih =>
    cases first with
    | bytes chunk =>
      have later := ih open_
      rw [List.cons_append, sent, later, sent, List.append_assoc]
    | accepted listener => exact ih open_
    | ended | broken => cases open_

theorem outcomes_of_open (open_ : ending? arrivals = none) :
    outcomes arrivals =
      (LineBuffer.feed {} (sent arrivals)).2.filterMap (readPiece inboundFormat) := by
  rw [outcomes, open_, if_neg (by simp), (feed_spec _).1]

private theorem outcomes_snoc (open_ : ending? arrivals = none) (arrival : Arrival) :
    outcomes (arrivals ++ [arrival]) = outcomes arrivals ++ adds (buffer arrivals) arrival := by
  have ending := ending?_snoc arrivals arrival
  have sentNow := sent_snoc open_ arrival
  rw [open_, Option.none_or] at ending
  cases arrival with
  | bytes chunk =>
    rw [outcomes_of_open ending, sentNow, outcomes_of_open open_]
    simp only [sent, List.append_nil, LineBuffer.feed_append, List.filterMap_append]
    rfl
  | ended =>
    have whole : outcomes (arrivals ++ [.ended]) = readAll inboundFormat (sent arrivals) := by
      rw [outcomes, ending, sentNow, sent, List.append_nil]
      rfl
    rw [whole, readAll, (feed_spec _).2, List.filterMap_append, outcomes_of_open open_]
    rfl
  | broken =>
    rw [outcomes, ending, if_neg (by simp [isLast]), sentNow, sent, List.append_nil, adds,
      List.append_nil, outcomes, open_, if_neg (by simp)]
  | accepted listener =>
    rw [outcomes_of_open ending, sentNow, sent, sent, List.append_nil, adds, List.append_nil,
      outcomes_of_open open_]

private theorem outcomes_snoc_of_ended (ended : (ending? arrivals).isSome = true)
    (arrival : Arrival) :
    outcomes (arrivals ++ [arrival]) = outcomes arrivals := by
  obtain ⟨last, found⟩ := Option.isSome_iff_exists.mp ended
  rw [outcomes, ending?_snoc, sent_snoc_of_ended ended, outcomes, found, Option.some_or]

private theorem ending?_of_not_isOver (open_ : isOver arrivals = false) :
    ending? arrivals = none := by
  rw [isOver, Bool.or_eq_false_iff, Option.isSome_eq_false_iff, Option.isNone_iff_eq_none] at open_
  exact open_.1

private theorem buffer_snoc (open_ : ending? arrivals = none) (arrival : Arrival) :
    buffer (arrivals ++ [arrival]) = ((buffer arrivals).feed (sent [arrival])).1 := by
  rw [buffer, sent_snoc open_, LineBuffer.feed_append, buffer]

private theorem isOver_snoc (arrivals : List Arrival) (arrival : Arrival) :
    isOver (arrivals ++ [arrival]) =
      (isOver arrivals || (arrival.isLast || hasError (adds (buffer arrivals) arrival))) := by
  cases ending : ending? arrivals with
  | some last => simp [isOver, ending?_snoc, ending]
  | none =>
    rw [isOver, ending?_snoc, outcomes_snoc ending, hasError_append, isOver, ending,
      Option.none_or, Option.isSome_none, Bool.false_or]
    cases arrival <;> simp [isLast]

private theorem said_snoc (arrivals : List Arrival) (arrival : Arrival) :
    said (arrivals ++ [arrival]) =
      said arrivals ++
        if isOver arrivals then [] else beforeError (adds (buffer arrivals) arrival) := by
  cases ending : ending? arrivals with
  | some last =>
    have ended : (ending? arrivals).isSome = true := by rw [ending]; rfl
    have ends : isOver arrivals = true := by rw [isOver, ended, Bool.true_or]
    rw [said, outcomes_snoc_of_ended ended, if_pos ends, List.append_nil, said]
  | none =>
    have ends : isOver arrivals = hasError (outcomes arrivals) := by
      rw [isOver, ending, Option.isSome_none, Bool.false_or]
    rw [said, outcomes_snoc ending, beforeError_append, ends, said]

/-- Nothing that arrives behind the end of a connection counts. -/
theorem peerActsAfter_snoc (arrivals : List Arrival) (arrival : Arrival) :
    let added := adds (buffer arrivals) arrival
    peerActsAfter (arrivals ++ [arrival]) =
      peerActsAfter arrivals ++
        if isOver arrivals then []
        else (beforeError added).map .said ++
          if arrival.isLast || hasError added then [.left, .abandoned] else [] := by
  simp only [peerActsAfter, isOver_snoc, said_snoc]
  cases isOver arrivals with
  | true => simp
  | false => simp

end Snoc

private theorem attaches_peerActsAfter (arrivals : List Arrival) (attached : Bool) :
    (peerActsAfter arrivals).foldl PeerAct.attaches attached = !isOver arrivals := by
  have saying : ∀ messages : List Inbound,
      (messages.map PeerAct.said).foldl PeerAct.attaches true = true := by
    intro messages
    induction messages with
    | nil => rfl
    | cons message rest ih => exact ih
  rw [peerActsAfter, List.foldl_cons, List.foldl_append, PeerAct.attaches, saying]
  cases isOver arrivals <;> rfl

end Arrival

/-! ## A service and one of its sockets -/

namespace Service

/-- What a move is for one socket. -/
def Move.arrivalAt? (socket : Nat) : Move → Option Arrival
  | .arrive _ other arrival => if other = socket then some arrival else none
  | .flush => none

/-- What arrives at one socket in the course of moves. -/
def arrivalsAt (socket : Nat) (moves : List Move) : List Arrival :=
  moves.filterMap (Move.arrivalAt? socket)

variable {service : Service} {socket : Nat} {id : ConnectionId}

theorem take_tcp (timestamp : String) {held : LineBuffer}
    (found : service.sockets.get? socket = some (.tcp { connection := id, buffer := held }))
    {arrival : Arrival} (noAccept : ∀ listener, arrival ≠ .accepted listener) :
    let added := Arrival.adds held arrival
    let ends := arrival.isLast || hasError added
    service.takeEvents timestamp socket arrival =
        publishing id timestamp (beforeError added) ends ∧
      (service.take timestamp socket arrival).2.sockets.get? socket =
        if ends then none
        else some (.tcp ⟨id, (held.feed (Arrival.sent [arrival])).1, true⟩) := by
  cases arrival with
  | accepted listener => exact absurd rfl (noAccept listener)
  | bytes chunk =>
    obtain ⟨events, next⟩ := TcpPeer.receive_spec timestamp { connection := id, buffer := held }
      rfl chunk service.hub
    simp only [takeEvents, take, found, Served.receiveEvents, Served.receive]
    refine ⟨events, ?_⟩
    rw [get?_settle, if_pos rfl, next]
    simp only [Arrival.isLast, Bool.false_or, Arrival.adds, Arrival.sent, List.append_nil]
    by_cases refused : hasError ((held.feed chunk).2.filterMap (readPiece inboundFormat)) = true
    · rw [if_pos refused, if_pos refused]
      rfl
    · rw [if_neg refused, if_neg refused]
      rfl
  | ended =>
    obtain ⟨events, next⟩ := TcpPeer.finish_spec timestamp { connection := id, buffer := held }
      rfl service.hub
    simp only [takeEvents, take, found, Served.finishEvents, Served.finish]
    refine ⟨events, ?_⟩
    rw [get?_settle, if_pos rfl, Option.filter_some, Served.isOpen, next]
    rfl
  | broken =>
    simp only [takeEvents, take, found, Served.tearDownEvents, Served.tearDown]
    refine ⟨rfl, ?_⟩
    rw [get?_settle, if_pos rfl]
    rfl

/-- A service, seen from one connection of it and what has arrived at its socket. No other socket
is the connection's. -/
structure Tracks (service : Service) (socket : Nat) (id : ConnectionId)
    (arrivals : List Arrival) : Prop where
  sound : service.Sound
  given : id < service.hub.nextId
  only : ∀ other, service.connectionAt? other = some id → other = socket
  side : service.sockets.get? socket =
    if Arrival.isOver arrivals then none
    else some (.tcp { connection := id, buffer := Arrival.buffer arrivals })

namespace Tracks

variable {arrivals : List Arrival}

theorem connectionAt?_ne (tracks : service.Tracks socket id arrivals) {other : Nat}
    (different : other ≠ socket) : service.connectionAt? other ≠ some id :=
  fun known => different (tracks.only other known)

private theorem not_isBehind (tracks : service.Tracks socket id arrivals) {other : Nat}
    (different : other ≠ socket) (events : List Hub.Event) :
    ¬ Served.IsBehind (service.connectionAt? other) service.hub events id := by
  rintro (known | ⟨new, _⟩)
  · exact tracks.connectionAt?_ne different known
  · exact absurd tracks.given (new ▸ Nat.lt_irrefl _)

theorem step_aside (tracks : service.Tracks socket id arrivals) {move : Move}
    (aside : move.arrivalAt? socket = none) :
    (service.move move).Tracks socket id arrivals ∧ peerActs id (service.moveEvents move) = [] := by
  have later := (service.moveEvents_run move).nextId_le tracks.sound.hub
  have given := Nat.lt_of_lt_of_le tracks.given later
  cases move with
  | flush =>
    refine ⟨⟨tracks.sound.move .flush, given, tracks.only, tracks.side⟩, peerActs_eq_nil ?_⟩
    intro event member _
    obtain ⟨taker, messages, rfl⟩ := took_of_mem_flushFromEvents member
    rfl
  | arrive timestamp other arrival =>
    have taken := service.take_spec timestamp other arrival
    have different : other ≠ socket := by
      rintro rfl
      rw [Move.arrivalAt?, if_pos rfl] at aside
      cases aside
    refine ⟨?_, peerActs_eq_nil ?_⟩
    · refine
        { sound := tracks.sound.move _
          given := given
          only := ?_
          side := (taken.others socket different.symm).trans tracks.side }
      intro another known
      by_cases same : another = other
      · subst same
        exact absurd (taken.connection id known) (tracks.not_isBehind different _)
      · exact tracks.only another ((taken.connection_of_ne same).symm.trans known)
    · intro event member same
      have isBehind := taken.subject event member
      rw [same] at isBehind
      exact absurd isBehind (tracks.not_isBehind different _)

private theorem of_taken (tracks : service.Tracks socket id arrivals) {events : List Hub.Event}
    {next : Service} (taken : service.Taken socket events next) {later : List Arrival}
    (side : next.sockets.get? socket =
      if Arrival.isOver later then none
      else some (.tcp { connection := id, buffer := Arrival.buffer later })) :
    next.Tracks socket id later where
  sound := taken.sound tracks.sound
  given := Nat.lt_of_lt_of_le tracks.given (taken.run.nextId_le tracks.sound.hub)
  only other known := by
    by_cases same : other = socket
    · exact same
    · exact tracks.only other ((taken.connection_of_ne same).symm.trans known)
  side := side

theorem step_arrival (tracks : service.Tracks socket id arrivals) (timestamp : String)
    {arrival : Arrival} (noAccept : ∀ listener, arrival ≠ .accepted listener) :
    let added := Arrival.adds (Arrival.buffer arrivals) arrival
    (service.take timestamp socket arrival).2.Tracks socket id (arrivals ++ [arrival]) ∧
      service.takeEvents timestamp socket arrival =
        if Arrival.isOver arrivals then []
        else publishing id timestamp (beforeError added) (arrival.isLast || hasError added) := by
  have taken := service.take_spec timestamp socket arrival
  have side := tracks.side
  cases ends : Arrival.isOver arrivals with
  | true =>
    -- Nothing is served at the socket any more.
    rw [ends, if_pos rfl] at side
    have idle : service.takeEvents timestamp socket arrival = [] ∧
        (service.take timestamp socket arrival).2 = service := by
      cases arrival with
      | accepted listener => exact absurd rfl (noAccept listener)
      | bytes chunk | ended | broken => simp only [takeEvents, take, side, and_self]
    refine ⟨tracks.of_taken taken ?_, idle.1⟩
    rw [idle.2, side, Arrival.isOver_snoc, ends, Bool.true_or, if_pos rfl]
  | false =>
    rw [ends, if_neg Bool.false_ne_true] at side
    obtain ⟨events, next⟩ := take_tcp timestamp side noAccept
    refine ⟨tracks.of_taken taken ?_, events⟩
    rw [next, Arrival.isOver_snoc, ends, Bool.false_or,
      Arrival.buffer_snoc (Arrival.ending?_of_not_isOver ends)]

/-- What an arrival at the socket adds to what the connection has published is all that others
notice of it. -/
theorem arrival_overheard (tracks : service.Tracks socket id arrivals) (moment : String)
    {arrival : Arrival} (noAccept : ∀ listener, arrival ≠ .accepted listener) :
    ∃ messages,
      Arrival.said (arrivals ++ [arrival]) = Arrival.said arrivals ++ messages ∧
        ∀ other, other ≠ id →
          Overhears other (messages.map (·.stamp moment)) service.hub
            (service.move (.arrive moment socket arrival)).hub := by
  have step := service.moveEvents_run (.arrive moment socket arrival)
  obtain ⟨_, events⟩ := tracks.step_arrival moment noAccept
  refine ⟨_, Arrival.said_snoc _ _, fun other different => ?_⟩
  rw [moveEvents, events] at step
  cases ends : Arrival.isOver arrivals with
  | true =>
    rw [ends] at step
    exact step.overhears tracks.sound.hub fun event member => nomatch member
  | false =>
    rw [ends, if_neg Bool.false_ne_true] at step
    have heard : Overhears other _ _ _ := step.overhears tracks.sound.hub fun event member same =>
      different (same.symm.trans (subject_publishing member))
    rwa [messages_publishing] at heard

theorem step (tracks : service.Tracks socket id arrivals) (move : Move)
    (noAccept : ∀ timestamp listener, move ≠ .arrive timestamp socket (.accepted listener)) :
    (service.move move).Tracks socket id (arrivals ++ (move.arrivalAt? socket).toList) ∧
      Arrival.peerActsAfter (arrivals ++ (move.arrivalAt? socket).toList) =
        Arrival.peerActsAfter arrivals ++ peerActs id (service.moveEvents move) := by
  cases at_ : move.arrivalAt? socket with
  | none =>
    obtain ⟨still, noActs⟩ := tracks.step_aside at_
    rw [Option.toList_none, List.append_nil, noActs, List.append_nil]
    exact ⟨still, rfl⟩
  | some arrival =>
    obtain ⟨timestamp, rfl⟩ : ∃ timestamp, move = .arrive timestamp socket arrival := by
      cases move with
      | flush => cases at_
      | arrive timestamp other found =>
        rw [Move.arrivalAt?] at at_
        split at at_
        · rename_i same
          cases at_
          exact ⟨timestamp, same ▸ rfl⟩
        · cases at_
    have noAcceptNow : ∀ listener, arrival ≠ .accepted listener :=
      fun listener same => noAccept timestamp listener (same ▸ rfl)
    obtain ⟨next, events⟩ := tracks.step_arrival timestamp noAcceptNow
    refine ⟨next, ?_⟩
    rw [Option.toList_some, Arrival.peerActsAfter_snoc, moveEvents, events]
    cases Arrival.isOver arrivals with
    | true => rfl
    | false => exact congrArg _ (peerActs_publishing ..).symm

/-- Whatever happens, a connection does what the bytes at its socket say. -/
theorem follow (tracks : service.Tracks socket id arrivals) {moves : List Move}
    (noAccept : ∀ timestamp listener, .arrive timestamp socket (.accepted listener) ∉ moves) :
    (service.follow moves).Tracks socket id (arrivals ++ arrivalsAt socket moves) ∧
      Arrival.peerActsAfter (arrivals ++ arrivalsAt socket moves) =
        Arrival.peerActsAfter arrivals ++ peerActs id (service.chronicle moves) := by
  induction moves generalizing service arrivals with
  | nil =>
    rw [arrivalsAt, List.filterMap_nil, List.append_nil]
    exact ⟨tracks, (List.append_nil _).symm⟩
  | cons move rest ih =>
    obtain ⟨next, now⟩ := tracks.step move fun timestamp listener same =>
      noAccept timestamp listener (same ▸ List.mem_cons_self)
    obtain ⟨last, later⟩ := ih next fun timestamp listener member =>
      noAccept timestamp listener (List.mem_cons_of_mem _ member)
    have split : arrivalsAt socket (move :: rest) =
        (move.arrivalAt? socket).toList ++ arrivalsAt socket rest := by
      cases at_ : move.arrivalAt? socket with
      | none => exact List.filterMap_cons_none at_
      | some arrival => exact List.filterMap_cons_some at_
    rw [split, ← List.append_assoc]
    refine ⟨last, ?_⟩
    rw [later, now, List.append_assoc, ← peerActs_append]
    rfl

end Tracks

theorem Sound.accept (sound : service.Sound) (timestamp : String)
    (free : service.serves socket = false) :
    (service.take timestamp socket (.accepted .tcp)).2.Tracks socket service.hub.nextId [] ∧
      service.takeEvents timestamp socket (.accepted .tcp) = [.attached service.hub.nextId] := by
  have found : service.sockets.get? socket = none :=
    Option.isSome_eq_false_iff.mp free |> Option.isNone_iff_eq_none.mp
  have taken := service.take_spec timestamp socket (.accepted .tcp)
  have events : service.takeEvents timestamp socket (.accepted .tcp) =
      [.attached service.hub.nextId] := by
    simp only [takeEvents, found, Served.acceptEvents]
  refine ⟨?_, events⟩
  refine
    { sound := taken.sound sound
      given := taken.run.lt_nextId sound.hub (events ▸ List.mem_singleton_self _)
      only := ?_
      side := ?_ }
  · intro other known
    by_cases same : other = socket
    · exact same
    · have before := sound.bounded ((taken.connection_of_ne same).symm.trans known)
      exact absurd before (Nat.lt_irrefl _)
  · have going : Arrival.isOver [] = false := by
      rw [Arrival.isOver, Arrival.outcomes_of_open rfl]
      rfl
    rw [going, if_neg Bool.false_ne_true]
    simp only [take, found, get?_settle]
    rfl

theorem Sound.peerActs_eq_nil (sound : service.Sound) (moves : List Move)
    (late : (service.follow moves).hub.nextId ≤ id) :
    peerActs id (service.chronicle moves) = [] := by
  induction moves generalizing service with
  | nil => rfl
  | cons move rest ih =>
    have next := sound.move move
    have now : peerActs id (service.moveEvents move) = [] := by
      refine Hub.peerActs_eq_nil fun event member same => ?_
      cases move with
      | flush =>
        obtain ⟨taker, messages, rfl⟩ := took_of_mem_flushFromEvents member
        rfl
      | arrive timestamp other arrival =>
        -- Whoever acts has a number by then, and numbers are handed out in order.
        have early := (service.take_spec timestamp other arrival).subject_lt sound member
        have until_ := (run_chronicle _ rest).nextId_le next.hub
        rw [same] at early
        exact absurd (Nat.lt_of_lt_of_le early (Nat.le_trans until_ late)) (Nat.lt_irrefl _)
    have later : peerActs id ((service.move move).chronicle rest) = [] := ih next late
    rw [chronicle, foldEvents, peerActs_append, now]
    exact later

section Accepted

variable {before rest : List Move} {timestamp : String}

theorem tracks_accepted (free : (follow {} before).serves socket = false)
    (once : ∀ moment listener, .arrive moment socket (.accepted listener) ∉ rest) :
    (follow {} (before ++ [.arrive timestamp socket (.accepted .tcp)] ++ rest)).Tracks socket
      (follow {} before).hub.nextId (arrivalsAt socket rest) := by
  have tracks := ((sound_empty.follow before).accept timestamp free).1
  rw [follow_append, follow_append]
  exact (tracks.follow once).1

private theorem peerActs_accepted (free : (follow {} before).serves socket = false)
    (once : ∀ moment listener, .arrive moment socket (.accepted listener) ∉ rest) :
    peerActs (follow {} before).hub.nextId
        (chronicle {} (before ++ [.arrive timestamp socket (.accepted .tcp)] ++ rest)) =
      Arrival.peerActsAfter (arrivalsAt socket rest) := by
  obtain ⟨tracks, joined⟩ := (sound_empty.follow before).accept timestamp free
  have unknown := sound_empty.peerActs_eq_nil before (Nat.le_refl _)
  have first : (follow {} before).chronicle [.arrive timestamp socket (.accepted .tcp)] =
      [.attached (follow {} before).hub.nextId] := congrArg (· ++ []) joined
  have start : Arrival.peerActsAfter [] = [.joined] := by
    rw [Arrival.peerActsAfter, Arrival.said, Arrival.isOver, Arrival.outcomes_of_open rfl]
    rfl
  have later := (tracks.follow once).2
  rw [List.nil_append, start] at later
  rw [later, chronicle_append, chronicle_append, peerActs_append, peerActs_append, unknown, first,
    follow_append]
  simp only [peerActs, Event.subject, if_pos, List.nil_append, List.append_nil]
  rfl

end Accepted

open Arrival in
/-- A TCP connection, whatever happens before it is accepted and from then on. It does exactly what
the bytes at its socket say, at every moment: it joins, it publishes the messages of its complete
lines up to the first bad one, and of the last line too once its input has ended, and it leaves once
when it is over. Nothing that arrives at its socket is noticed by another connection except for the
messages. -/
theorem publishes_what_arrives (before rest : List Move) (timestamp : String) (socket : Nat)
    (free : (follow {} before).serves socket = false)
    (once : ∀ moment listener, .arrive moment socket (.accepted listener) ∉ rest) :
    let id := (follow {} before).hub.nextId
    let accepted := before ++ [.arrive timestamp socket (.accepted .tcp)]
    let arrivals := arrivalsAt socket rest
    Hub.Run {} (chronicle {} (accepted ++ rest)) (follow {} (accepted ++ rest)).hub ∧
      peerActs id (chronicle {} (accepted ++ rest)) =
        .joined :: ((said arrivals).map .said ++
          if isOver arrivals then [.left, .abandoned] else []) ∧
      (follow {} (accepted ++ rest)).hub.isAttached id = !isOver arrivals ∧
      ∀ earlier later moment arrival, rest = earlier ++ .arrive moment socket arrival :: later →
        let prior := follow {} (accepted ++ earlier)
        ∃ messages,
          said (arrivalsAt socket earlier ++ [arrival]) =
              said (arrivalsAt socket earlier) ++ messages ∧
            ∀ other, other ≠ id →
              Overhears other (messages.map (·.stamp moment)) prior.hub
                (prior.move (.arrive moment socket arrival)).hub := by
  intro id accepted arrivals
  have run := run_chronicle {} (accepted ++ rest)
  have itsActs : peerActs id (chronicle {} (accepted ++ rest)) = peerActsAfter arrivals :=
    peerActs_accepted free once
  refine ⟨run, itsActs, ?_, ?_⟩
  · rw [run.isAttached Hub.sound_empty, itsActs, attaches_peerActsAfter]
  · intro earlier later moment arrival parts
    have noAccept : ∀ listener, arrival ≠ .accepted listener := by
      rintro listener rfl
      exact once moment listener (parts ▸ List.mem_append_right _ List.mem_cons_self)
    have prior : (follow {} (accepted ++ earlier)).Tracks socket id (arrivalsAt socket earlier) :=
      tracks_accepted free fun moment listener member =>
        once moment listener (parts ▸ List.mem_append_left _ member)
    exact prior.arrival_overheard moment noAccept

/-- One connection sends a line in two chunks, cut inside a character, while another sends one too.
Then it sends a bad line and another good one in the same chunk. -/
def interruption : List Move :=
  let line := Utf8.encode "\x7b\"sender\":\"a\",\"message\":\"hé\"\x7d\n".toList
  [.arrive "09:00:01Z" 3 (.bytes (line.take 27)),
    .arrive "09:00:02Z" 7 (.bytes line),
    .flush,
    .arrive "09:00:03Z" 3 (.bytes (line.drop 27 ++ Utf8.encode ['?', '\n'] ++ line)),
    .arrive "09:00:04Z" 3 .ended]

theorem publishes_what_arrives_interruption :
    peerActs 2 (chronicle {} ([.arrive "09:00:00Z" 7 (.accepted .tcp)] ++
        [.arrive "09:00:00Z" 3 (.accepted .tcp)] ++ interruption)) =
      [.joined, .said ⟨"a", "hé"⟩, .left, .abandoned] := by
  have heldThere : Arrival.said (arrivalsAt 3 interruption) = [⟨"a", "hé"⟩] ∧
      Arrival.isOver (arrivalsAt 3 interruption) = true := by
    decide +kernel
  obtain ⟨_, itsActs, _⟩ := publishes_what_arrives [.arrive "09:00:00Z" 7 (.accepted .tcp)]
    interruption "09:00:00Z" 3 rfl (by simp [interruption])
  rw [heldThere.1, heldThere.2] at itsActs
  exact itsActs

end Service

end ChatHub
