import ChatHub.Net.Service
import ChatHub.Proofs.Hub.History
/-!
What happens at one socket, as a history of the hub behind it. Everything that a socket does to
the hub is done in the name of the one connection behind it. Main statements: `Served.accept_spec`,
`Served.receive_spec`, `Served.finish_spec` and `Served.tearDown_spec`, one for each kind of
arrival. The chronicle of an operation is the definition that has its name and ends in `Events`.
-/

set_option autoImplicit false

namespace ChatHub

/-! ## Several items in order -/

/-- The chronicle of a fold. -/
def foldEvents {σ α : Type} (act : σ → α → σ) (events : σ → α → List Hub.Event) :
    σ → List α → List Hub.Event
  | _, [] => []
  | state, item :: rest => events state item ++ foldEvents act events (act state item) rest

theorem run_foldl {σ α : Type} {act : σ → α → σ} {events : σ → α → List Hub.Event}
    (hubOf : σ → Hub)
    (each : ∀ state item, Hub.Run (hubOf state) (events state item) (hubOf (act state item)))
    (state : σ) (items : List α) :
    Hub.Run (hubOf state) (foldEvents act events state items) (hubOf (items.foldl act state)) := by
  induction items generalizing state with
  | nil => exact .nil
  | cons item rest ih => exact (each state item).append (ih (act state item))

private theorem mem_foldEvents {σ α : Type} {act : σ → α → σ} {events : σ → α → List Hub.Event}
    {property : Hub.Event → Prop} (invariant : σ → Prop) (each : ∀ state item, invariant state →
      invariant (act state item) ∧ ∀ event ∈ events state item, property event)
    {state : σ} (holds : invariant state) (items : List α) :
    ∀ event ∈ foldEvents act events state items, property event := by
  induction items generalizing state with
  | nil => exact fun event member => nomatch member
  | cons item rest ih =>
    obtain ⟨kept, now⟩ := each state item holds
    intro event member
    rcases List.mem_append.mp member with first | later
    · exact now event first
    · exact ih kept event later

theorem foldl_invariant {σ α : Type} {act : σ → α → σ} (invariant : σ → Prop)
    (each : ∀ state item, invariant state → invariant (act state item)) {state : σ}
    (holds : invariant state) (items : List α) : invariant (items.foldl act state) := by
  induction items generalizing state with
  | nil => exact holds
  | cons item rest ih => exact ih (each state item holds)

/-! ## Connections -/

/-- The chronicle of a connection that is closed. -/
def closing (id : ConnectionId) : List Hub.Event :=
  [.detached id, .abandoned id]

theorem run_closing (hub : Hub) (id : ConnectionId) :
    Hub.Run hub (closing id) ((hub.detach id).dropMailbox id) :=
  .cons (.detach hub id) (.cons (.dropMailbox _ id) .nil)

theorem subject_closing {id : ConnectionId} {event : Hub.Event} (member : event ∈ closing id) :
    event.subject = id := by
  simp only [closing, List.mem_cons, List.not_mem_nil, or_false] at member
  rcases member with rfl | rfl <;> rfl

namespace TcpPeer

def pieceEvents (timestamp : String) (state : TcpPeer × Hub) (piece : List UInt8) :
    List Hub.Event :=
  if state.1.isOpen then
    match Wire.readPiece Wire.inboundFormat piece with
    | none => []
    | some (.ok message) => [.published state.1.connection (message.stamp timestamp)]
    | some (.error _) => closing state.1.connection
  else []

private theorem pieceEvents_run (timestamp : String) (state : TcpPeer × Hub) (piece : List UInt8) :
    Hub.Run state.2 (pieceEvents timestamp state piece) (takePiece timestamp state piece).2 := by
  obtain ⟨peer, hub⟩ := state
  simp only [pieceEvents, takePiece]
  split
  · cases Wire.readPiece Wire.inboundFormat piece with
    | none => exact .nil
    | some outcome =>
      cases outcome with
      | ok message => exact (Hub.Step.publish hub peer.connection message timestamp).run
      | error cause => exact run_closing hub peer.connection
  · exact .nil

private theorem connection_takePiece (timestamp : String) (state : TcpPeer × Hub)
    (piece : List UInt8) :
    (takePiece timestamp state piece).1.connection = state.1.connection := by
  obtain ⟨peer, hub⟩ := state
  simp only [takePiece]
  split
  · split <;> rfl
  · rfl

private theorem subject_pieceEvents {timestamp : String} {state : TcpPeer × Hub}
    {piece : List UInt8} {event : Hub.Event} (member : event ∈ pieceEvents timestamp state piece) :
    event.subject = state.1.connection := by
  simp only [pieceEvents] at member
  split at member
  · split at member
    · cases member
    · rw [List.mem_singleton.mp member]
      rfl
    · exact subject_closing member
  · cases member

section Pieces

variable (timestamp : String) (peer : TcpPeer) (hub : Hub) (pieces : List (List UInt8))

def piecesEvents : List Hub.Event :=
  foldEvents (takePiece timestamp) (pieceEvents timestamp) (peer, hub) pieces

private theorem piecesEvents_run :
    Hub.Run hub (peer.piecesEvents timestamp hub pieces)
      (pieces.foldl (takePiece timestamp) (peer, hub)).2 :=
  run_foldl Prod.snd (pieceEvents_run timestamp) (peer, hub) pieces

private theorem subject_piecesEvents :
    ∀ event ∈ peer.piecesEvents timestamp hub pieces, event.subject = peer.connection := by
  refine mem_foldEvents (fun (state : TcpPeer × Hub) => state.1.connection = peer.connection)
    ?_ rfl _
  intro state piece same
  refine ⟨(connection_takePiece timestamp state piece).trans same, fun event member => ?_⟩
  exact (subject_pieceEvents member).trans same

private theorem connection_foldl_takePiece :
    (pieces.foldl (takePiece timestamp) (peer, hub)).1.connection = peer.connection := by
  refine foldl_invariant (fun (state : TcpPeer × Hub) => state.1.connection = peer.connection)
    ?_ rfl _
  intro state piece same
  exact (connection_takePiece timestamp state piece).trans same

end Pieces

def receiveEvents (peer : TcpPeer) (timestamp : String) (bytes : List UInt8) (hub : Hub) :
    List Hub.Event :=
  if peer.isOpen then
    { peer with buffer := (peer.buffer.feed bytes).1 }.piecesEvents timestamp hub
      (peer.buffer.feed bytes).2
  else []

def finishEvents (peer : TcpPeer) (timestamp : String) (hub : Hub) : List Hub.Event :=
  if peer.isOpen then
    let last := peer.buffer.finish.toList
    peer.piecesEvents timestamp hub last ++
      if (last.foldl (takePiece timestamp) (peer, hub)).1.isOpen then closing peer.connection
      else []
  else []

def resetEvents (peer : TcpPeer) : List Hub.Event :=
  if peer.isOpen then closing peer.connection else []

def outgoingEvents (peer : TcpPeer) (hub : Hub) : List Hub.Event :=
  if peer.isOpen then [.took peer.connection (hub.drain peer.connection).1] else []

end TcpPeer

namespace SocketPeer

def takeEvents (timestamp : String) (state : SocketPeer × Hub) (event : SocketEvent) :
    List Hub.Event :=
  if state.1.isOpen then
    match event with
    | .text text =>
      let message : Inbound := ⟨sender state.1.connection, text⟩
      [.published state.1.connection (message.stamp timestamp)]
    | .binary _ | .ping _ | .pong _ => []
    | .close | .failed => closing state.1.connection
  else []

private theorem takeEvents_run (timestamp : String) (state : SocketPeer × Hub)
    (event : SocketEvent) :
    Hub.Run state.2 (takeEvents timestamp state event) (take timestamp state event).2 := by
  obtain ⟨peer, hub⟩ := state
  simp only [takeEvents, take]
  split
  · cases event with
    | text text => exact (Hub.Step.publish hub peer.connection _ timestamp).run
    | binary _ | ping _ | pong _ => exact .nil
    | close | failed => exact run_closing hub peer.connection
  · exact .nil

private theorem connection_take (timestamp : String) (state : SocketPeer × Hub)
    (event : SocketEvent) :
    (take timestamp state event).1.connection = state.1.connection := by
  obtain ⟨peer, hub⟩ := state
  simp only [take]
  split
  · cases event <;> rfl
  · rfl

private theorem subject_takeEvents {timestamp : String} {state : SocketPeer × Hub}
    {event : SocketEvent} {done : Hub.Event} (member : done ∈ takeEvents timestamp state event) :
    done.subject = state.1.connection := by
  simp only [takeEvents] at member
  split at member
  · cases event with
    | text text =>
      rw [List.mem_singleton.mp member]
      rfl
    | binary _ | ping _ | pong _ => cases member
    | close | failed => exact subject_closing member
  · cases member

def outgoingEvents (peer : SocketPeer) (hub : Hub) : List Hub.Event :=
  if peer.isOpen then [.took peer.connection (hub.drain peer.connection).1] else []

end SocketPeer

/-! ## One socket -/

namespace Served

/-- The connection behind a socket; a request has none yet. -/
def connection? : Served → Option ConnectionId
  | .tcp peer => some peer.connection
  | .request _ => none
  | .webSocket peer _ => some peer.connection

def acceptEvents (listener : Listener) (hub : Hub) : List Hub.Event :=
  match listener with
  | .webSocket => []
  | .tcp => [.attached hub.nextId]

def framesEvents (timestamp : String) (peer : SocketPeer) (reader : FrameReader)
    (bytes : List UInt8) (hub : Hub) : List Hub.Event :=
  foldEvents (SocketPeer.take timestamp) (SocketPeer.takeEvents timestamp) (peer, hub)
    (reader.receive bytes).2

def receiveEvents (timestamp : String) (served : Served) (bytes : List UInt8) (hub : Hub) :
    List Hub.Event :=
  match served with
  | .tcp peer => peer.receiveEvents timestamp bytes hub
  | .request held =>
    match splitHead? (held ++ bytes) with
    | none => []
    | some (head, behind) =>
      if (Handshake.answer (head.map fun byte => Char.ofNat byte.toNat)).isAccepted then
        .attached hub.nextId ::
          framesEvents timestamp (SocketPeer.accept hub).1 {} behind (SocketPeer.accept hub).2
      else []
  | .webSocket peer reader => framesEvents timestamp peer reader bytes hub

def finishEvents (timestamp : String) (served : Served) (hub : Hub) : List Hub.Event :=
  match served with
  | .tcp peer => peer.finishEvents timestamp hub
  | .request _ => []
  | .webSocket peer _ => SocketPeer.takeEvents timestamp (peer, hub) .failed

def tearDownEvents (timestamp : String) (served : Served) (hub : Hub) : List Hub.Event :=
  match served with
  | .tcp peer => peer.resetEvents
  | .request _ => []
  | .webSocket peer _ => SocketPeer.takeEvents timestamp (peer, hub) .failed

def outgoingEvents (served : Served) (hub : Hub) : List Hub.Event :=
  match served with
  | .tcp peer => peer.outgoingEvents hub
  | .request _ => []
  | .webSocket peer _ => peer.outgoingEvents hub

/-- Whether a connection is the one behind a socket: it is known already, or it is new. -/
def IsBehind (known? : Option ConnectionId) (hub : Hub) (events : List Hub.Event)
    (id : ConnectionId) : Prop :=
  known? = some id ∨ id = hub.nextId ∧ .attached id ∈ events

/-- An arrival that concerns nobody but the connection behind its socket. -/
structure Spec (known? : Option ConnectionId) (hub : Hub) (events : List Hub.Event)
    (served? : Option Served) (next : Hub) : Prop where
  run : Hub.Run hub events next
  subject : ∀ event ∈ events, IsBehind known? hub events event.subject
  connection : ∀ left id, served? = some left → left.connection? = some id →
    IsBehind known? hub events id

theorem IsBehind.lt {known? : Option ConnectionId} {hub next : Hub} {events : List Hub.Event}
    {id : ConnectionId} (isBehind : IsBehind known? hub events id)
    (run : Hub.Run hub events next) (sound : hub.Sound)
    (bounded : known? = some id → id < hub.nextId) : id < next.nextId := by
  rcases isBehind with known | ⟨_, attached⟩
  · exact Nat.lt_of_lt_of_le (bounded known) (run.nextId_le sound)
  · exact run.lt_nextId sound attached

/-- What is done in the name of a connection that is known. -/
theorem Spec.of_known {id : ConnectionId} {hub next : Hub} {events : List Hub.Event}
    {left : Served} (run : Hub.Run hub events next)
    (subject : ∀ event ∈ events, event.subject = id) (same : left.connection? = some id) :
    Spec (some id) hub events (some left) next where
  run := run
  subject event member := .inl (congrArg some (subject event member).symm)
  connection _ other given named := by
    cases given
    exact .inl (same.symm.trans named)

private theorem framesEvents_run (timestamp : String) (peer : SocketPeer) (reader : FrameReader)
    (bytes : List UInt8) (hub : Hub) :
    Hub.Run hub (framesEvents timestamp peer reader bytes hub)
      (takeFrames timestamp peer reader bytes hub).2.2 :=
  run_foldl Prod.snd (SocketPeer.takeEvents_run timestamp) (peer, hub) (reader.receive bytes).2

private theorem subject_framesEvents {timestamp : String} {peer : SocketPeer} {reader : FrameReader}
    {bytes : List UInt8} {hub : Hub} :
    ∀ event ∈ framesEvents timestamp peer reader bytes hub, event.subject = peer.connection := by
  refine mem_foldEvents (fun (state : SocketPeer × Hub) => state.1.connection = peer.connection)
    ?_ rfl _
  intro state event same
  refine ⟨(SocketPeer.connection_take timestamp state event).trans same, fun done member => ?_⟩
  exact (SocketPeer.subject_takeEvents member).trans same

private theorem connection_takeFrames (timestamp : String) (peer : SocketPeer)
    (reader : FrameReader) (bytes : List UInt8) (hub : Hub) :
    (takeFrames timestamp peer reader bytes hub).2.1.connection? = some peer.connection := by
  have same : (peer.takeAll timestamp (reader.receive bytes).2 hub).1.connection =
      peer.connection := by
    refine foldl_invariant (fun (state : SocketPeer × Hub) => state.1.connection = peer.connection)
      ?_ rfl _
    intro state event same
    exact (SocketPeer.connection_take timestamp state event).trans same
  exact congrArg some same

/-- Nothing is done to the hub, and the connection stays. -/
theorem Spec.idle {left : Served} {known? : Option ConnectionId} (hub : Hub)
    (same : left.connection? = known?) : Spec known? hub [] (some left) hub where
  run := .nil
  subject _ member := by cases member
  connection _ id given named := by
    cases given
    exact .inl (same.symm.trans named)

theorem Spec.gone (known? : Option ConnectionId) (hub : Hub) : Spec known? hub [] none hub where
  run := .nil
  subject _ member := by cases member
  connection _ _ given := by cases given

theorem accept_spec (listener : Listener) (hub : Hub) :
    Spec none hub (acceptEvents listener hub) (some (accept listener hub).1)
      (accept listener hub).2 := by
  cases listener with
  | webSocket => exact .idle hub rfl
  | tcp =>
    have new : IsBehind none hub [.attached hub.nextId] hub.nextId :=
      .inr ⟨rfl, List.mem_singleton_self _⟩
    refine
      { run := (Hub.Step.attach hub).run
        subject := ?_
        connection := ?_ }
    · intro event member
      rw [List.mem_singleton.mp member]
      exact new
    · intro left id given named
      cases given
      cases named
      exact new

private theorem receive_tcp_spec (timestamp : String) (peer : TcpPeer) (bytes : List UInt8)
    (hub : Hub) :
    Spec (some peer.connection) hub (peer.receiveEvents timestamp bytes hub)
      (some (.tcp (peer.receive timestamp bytes hub).1)) (peer.receive timestamp bytes hub).2 := by
  simp only [TcpPeer.receiveEvents, TcpPeer.receive]
  split
  · let fed : TcpPeer := { peer with buffer := (peer.buffer.feed bytes).1 }
    have same := fed.connection_foldl_takePiece timestamp hub (peer.buffer.feed bytes).2
    exact .of_known (fed.piecesEvents_run timestamp hub _)
      (fed.subject_piecesEvents timestamp hub _) (congrArg some same)
  · exact .idle hub rfl

private theorem receive_request_spec (timestamp : String) (held bytes : List UInt8) (hub : Hub) :
    Spec none hub (receiveEvents timestamp (.request held) bytes hub)
      (receive timestamp (.request held) bytes hub).2.1
      (receive timestamp (.request held) bytes hub).2.2 := by
  simp only [receiveEvents, receive]
  cases splitHead? (held ++ bytes) with
  | none => exact .idle hub rfl
  | some halves =>
    obtain ⟨head, behind⟩ := halves
    simp only
    split
    · have new : ∀ events, IsBehind none hub (.attached hub.nextId :: events) hub.nextId :=
        fun events => .inr ⟨rfl, List.mem_cons_self⟩
      have frames := framesEvents_run timestamp (SocketPeer.accept hub).1 {} behind
        (SocketPeer.accept hub).2
      refine
        { run := .cons (.attach hub) frames
          subject := ?_
          connection := ?_ }
      · intro event member
        rcases List.mem_cons.mp member with rfl | inside
        · exact new _
        · rw [subject_framesEvents event inside]
          exact new _
      · intro left id given named
        rw [← Option.some.inj given, connection_takeFrames] at named
        cases named
        exact new _
    · exact .gone _ hub

theorem receive_spec (timestamp : String) (served : Served) (bytes : List UInt8) (hub : Hub) :
    Spec served.connection? hub (served.receiveEvents timestamp bytes hub)
      (served.receive timestamp bytes hub).2.1 (served.receive timestamp bytes hub).2.2 := by
  cases served with
  | tcp peer => exact receive_tcp_spec timestamp peer bytes hub
  | request held => exact receive_request_spec timestamp held bytes hub
  | webSocket peer reader =>
    exact .of_known (framesEvents_run timestamp peer reader bytes hub) subject_framesEvents
      (connection_takeFrames timestamp peer reader bytes hub)

private theorem finish_tcp_spec (timestamp : String) (peer : TcpPeer) (hub : Hub) :
    Spec (some peer.connection) hub (peer.finishEvents timestamp hub)
      (some (.tcp (peer.finish timestamp hub).1)) (peer.finish timestamp hub).2 := by
  have run := peer.piecesEvents_run timestamp hub peer.buffer.finish.toList
  have subject := peer.subject_piecesEvents timestamp hub peer.buffer.finish.toList
  have same := peer.connection_foldl_takePiece timestamp hub peer.buffer.finish.toList
  simp only [TcpPeer.finishEvents, TcpPeer.finish]
  split
  · split
    · refine .of_known (run.append ?_) ?_ (congrArg some same)
      · rw [← same]
        exact run_closing _ _
      · intro event member
        rcases List.mem_append.mp member with inside | last
        · exact subject event inside
        · exact subject_closing last
    · rw [List.append_nil]
      exact .of_known run subject (congrArg some same)
  · exact .idle hub rfl

/-- What a stream's failure does, at its end or in the middle of it. -/
theorem failed_spec (timestamp : String) (peer : SocketPeer) (reader : FrameReader) (hub : Hub) :
    Spec (some peer.connection) hub (SocketPeer.takeEvents timestamp (peer, hub) .failed)
      (some (.webSocket (SocketPeer.take timestamp (peer, hub) .failed).1 reader))
      (SocketPeer.take timestamp (peer, hub) .failed).2 :=
  .of_known (SocketPeer.takeEvents_run timestamp (peer, hub) .failed)
    (fun _ member => SocketPeer.subject_takeEvents member)
    (congrArg some (SocketPeer.connection_take timestamp (peer, hub) .failed))

theorem finish_spec (timestamp : String) (served : Served) (hub : Hub) :
    Spec served.connection? hub (served.finishEvents timestamp hub) (served.finish timestamp hub).1
      (served.finish timestamp hub).2 := by
  cases served with
  | tcp peer => exact finish_tcp_spec timestamp peer hub
  | request held => exact .gone _ hub
  | webSocket peer reader => exact failed_spec timestamp peer reader hub

theorem tearDown_spec (timestamp : String) (served : Served) (hub : Hub) :
    Spec served.connection? hub (served.tearDownEvents timestamp hub)
      (served.tearDown timestamp hub).1 (served.tearDown timestamp hub).2 := by
  cases served with
  | tcp peer =>
    simp only [tearDownEvents, tearDown, TcpPeer.resetEvents, TcpPeer.reset]
    split
    · exact .of_known (run_closing hub peer.connection) (fun _ member => subject_closing member) rfl
    · exact .idle hub rfl
  | request held => exact .gone _ hub
  | webSocket peer reader => exact failed_spec timestamp peer reader hub

end Served

end ChatHub
