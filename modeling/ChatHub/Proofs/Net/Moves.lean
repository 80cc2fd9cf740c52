import ChatHub.Proofs.Net.Chronicle
/-!
What happens at all sockets of a service, in any order, as a history of the hub behind them. Main
statements: `Service.take_spec`, for one arrival, and `Service.run_chronicle` and
`Service.Sound.follow`, for whole runs.
-/

set_option autoImplicit false

namespace ChatHub

namespace Service

def takeEvents (service : Service) (timestamp : String) (socket : Nat) (arrival : Arrival) :
    List Hub.Event :=
  match arrival, service.sockets.get? socket with
  | .accepted listener, none => Served.acceptEvents listener service.hub
  | .bytes bytes, some served => served.receiveEvents timestamp bytes service.hub
  | .ended, some served => served.finishEvents timestamp service.hub
  | .broken, some served => served.tearDownEvents timestamp service.hub
  | .accepted _, some _ | .bytes _, none | .ended, none | .broken, none => []

def flushFromEvents (hub : Hub) : List (Nat × Served) → List Hub.Event
  | [] => []
  | (_, served) :: rest => served.outgoingEvents hub ++ flushFromEvents (served.outgoing hub).2 rest

def flushEvents (service : Service) : List Hub.Event :=
  flushFromEvents service.hub service.sockets.entries

/-- What a hub and its listeners do next: take what happens at a socket, or send what waits. -/
inductive Move where
  | arrive (timestamp : String) (socket : Nat) (arrival : Arrival)
  | flush
  deriving DecidableEq, Repr

def move (service : Service) : Move → Service
  | .arrive timestamp socket arrival => (service.take timestamp socket arrival).2
  | .flush => service.flush.2

def moveEvents (service : Service) : Move → List Hub.Event
  | .arrive timestamp socket arrival => service.takeEvents timestamp socket arrival
  | .flush => service.flushEvents

/-- The state behind moves in order. -/
def follow (service : Service) (moves : List Move) : Service :=
  moves.foldl move service

/-- The chronicle of moves in order. -/
def chronicle (service : Service) (moves : List Move) : List Hub.Event :=
  foldEvents move moveEvents service moves

/-- The connection behind a socket. -/
def connectionAt? (service : Service) (socket : Nat) : Option ConnectionId :=
  (service.sockets.get? socket).bind Served.connection?

variable (service : Service)

theorem get?_settle (socket other : Nat) (served? : Option Served) (hub : Hub) :
    (service.settle socket served? hub).sockets.get? other =
      if other = socket then served?.filter Served.isOpen else service.sockets.get? other := by
  by_cases same : other = socket
  · subst same
    rw [if_pos rfl]
    simp only [settle]
    split
    · rename_i open_
      rw [Roster.get?_put_self, open_]
    · rename_i none
      rw [Roster.get?_erase_self]
      exact none.symm
  · rw [if_neg same]
    simp only [settle]
    split
    · exact Roster.get?_put_of_ne _ _ same
    · exact Roster.get?_erase_of_ne _ same

/-- What one arrival does, to the hub and to the sockets. -/
structure Taken (socket : Nat) (events : List Hub.Event) (next : Service) : Prop where
  run : Hub.Run service.hub events next.hub
  subject : ∀ event ∈ events,
    Served.IsBehind (service.connectionAt? socket) service.hub events event.subject
  others : ∀ other, other ≠ socket → next.sockets.get? other = service.sockets.get? other
  connection : ∀ id, next.connectionAt? socket = some id →
    Served.IsBehind (service.connectionAt? socket) service.hub events id

private theorem taken_nothing (socket : Nat) : service.Taken socket [] service where
  run := .nil
  subject _ member := by cases member
  others _ _ := rfl
  connection _ named := .inl named

variable {service} in
theorem Taken.of_spec {socket : Nat} {events : List Hub.Event} {served? : Option Served}
    {hub : Hub}
    (spec : Served.Spec (service.connectionAt? socket) service.hub events served? hub) :
    service.Taken socket events (service.settle socket served? hub) where
  run := spec.run
  subject := spec.subject
  others other different := by rw [get?_settle, if_neg different]
  connection id named := by
    rw [connectionAt?, get?_settle, if_pos rfl] at named
    obtain ⟨left, kept, isIts⟩ := Option.bind_eq_some_iff.mp named
    exact spec.connection left id (Option.filter_eq_some_iff.mp kept).1 isIts

theorem take_spec (timestamp : String) (socket : Nat) (arrival : Arrival) :
    service.Taken socket (service.takeEvents timestamp socket arrival)
      (service.take timestamp socket arrival).2 := by
  have known : service.connectionAt? socket =
      (service.sockets.get? socket).bind Served.connection? := rfl
  cases found : service.sockets.get? socket with
  | none =>
    rw [found] at known
    cases arrival with
    | accepted listener =>
      simp only [takeEvents, take, found]
      exact .of_spec (known ▸ Served.accept_spec listener service.hub)
    | bytes bytes | ended | broken =>
      simp only [takeEvents, take, found]
      exact service.taken_nothing socket
  | some served =>
    rw [found] at known
    cases arrival with
    | accepted listener =>
      simp only [takeEvents, take, found]
      exact service.taken_nothing socket
    | bytes bytes =>
      simp only [takeEvents, take, found]
      exact .of_spec (known ▸ served.receive_spec timestamp bytes service.hub)
    | ended =>
      simp only [takeEvents, take, found]
      exact .of_spec (known ▸ served.finish_spec timestamp service.hub)
    | broken =>
      simp only [takeEvents, take, found]
      exact .of_spec (known ▸ served.tearDown_spec timestamp service.hub)

/-! ## Moves -/

private theorem outgoing_run (served : Served) (hub : Hub) :
    Hub.Run hub (served.outgoingEvents hub) (served.outgoing hub).2 := by
  cases served with
  | request held => exact .nil
  | tcp peer =>
    simp only [Served.outgoingEvents, Served.outgoing, TcpPeer.outgoingEvents, TcpPeer.outgoing]
    split
    · exact (Hub.Step.drain hub peer.connection).run
    · exact .nil
  | webSocket peer reader =>
    simp only [Served.outgoingEvents, Served.outgoing, SocketPeer.outgoingEvents,
      SocketPeer.outgoing]
    split
    · exact (Hub.Step.drain hub peer.connection).run
    · exact .nil

private theorem flushFrom_run (hub : Hub) (entries : List (Nat × Served)) :
    Hub.Run hub (flushFromEvents hub entries) (flushFrom hub entries).2 := by
  induction entries generalizing hub with
  | nil => exact .nil
  | cons entry rest ih => exact (outgoing_run entry.2 hub).append (ih _)

private theorem took_of_mem_outgoingEvents {served : Served} {hub : Hub} {event : Hub.Event}
    (member : event ∈ served.outgoingEvents hub) : ∃ id messages, event = .took id messages := by
  cases served with
  | request held => cases member
  | tcp peer =>
    simp only [Served.outgoingEvents, TcpPeer.outgoingEvents] at member
    split at member
    · exact ⟨_, _, List.mem_singleton.mp member⟩
    · cases member
  | webSocket peer reader =>
    simp only [Served.outgoingEvents, SocketPeer.outgoingEvents] at member
    split at member
    · exact ⟨_, _, List.mem_singleton.mp member⟩
    · cases member

theorem took_of_mem_flushFromEvents {hub : Hub} {entries : List (Nat × Served)}
    {event : Hub.Event} (member : event ∈ flushFromEvents hub entries) :
    ∃ id messages, event = .took id messages := by
  induction entries generalizing hub with
  | nil => cases member
  | cons entry rest ih =>
    rcases List.mem_append.mp member with now | later
    · exact took_of_mem_outgoingEvents now
    · exact ih later

theorem moveEvents_run (move : Move) :
    Hub.Run service.hub (service.moveEvents move) (service.move move).hub := by
  cases move with
  | arrive timestamp socket arrival => exact (service.take_spec timestamp socket arrival).run
  | flush => exact flushFrom_run service.hub service.sockets.entries

/-- The chronicle is the history of the hub. -/
theorem run_chronicle (moves : List Move) :
    Hub.Run service.hub (service.chronicle moves) (service.follow moves).hub :=
  run_foldl hub moveEvents_run service moves

theorem follow_append (earlier later : List Move) :
    service.follow (earlier ++ later) = (service.follow earlier).follow later :=
  List.foldl_append

theorem chronicle_append (earlier later : List Move) :
    service.chronicle (earlier ++ later) =
      service.chronicle earlier ++ (service.follow earlier).chronicle later := by
  induction earlier generalizing service with
  | nil => rfl
  | cons move rest ih =>
    have later := ih (service.move move)
    simp only [chronicle, foldEvents, List.cons_append, follow, List.foldl_cons,
      List.append_assoc] at later ⊢
    rw [later]

/-- What all moves keep: the connections behind sockets have numbers that were handed out. -/
structure Sound : Prop where
  hub : service.hub.Sound
  bounded : ∀ {socket id}, service.connectionAt? socket = some id → id < service.hub.nextId

theorem sound_empty : ({} : Service).Sound where
  hub := Hub.sound_empty
  bounded known := by cases known

variable {service}

theorem Taken.connection_of_ne {socket other : Nat} {events : List Hub.Event} {next : Service}
    (taken : service.Taken socket events next) (different : other ≠ socket) :
    next.connectionAt? other = service.connectionAt? other := by
  rw [connectionAt?, taken.others other different, connectionAt?]

theorem Taken.subject_lt {socket : Nat} {events : List Hub.Event} {next : Service}
    (taken : service.Taken socket events next) (sound : service.Sound) {event : Hub.Event}
    (member : event ∈ events) : event.subject < next.hub.nextId :=
  (taken.subject event member).lt taken.run sound.hub sound.bounded

theorem Taken.sound {socket : Nat} {events : List Hub.Event} {next : Service}
    (taken : service.Taken socket events next) (sound : service.Sound) : next.Sound where
  hub := taken.run.sound sound.hub
  bounded {other id} known := by
    by_cases same : other = socket
    · subst same
      exact (taken.connection id known).lt taken.run sound.hub sound.bounded
    · rw [taken.connection_of_ne same] at known
      exact Nat.lt_of_lt_of_le (sound.bounded known) (taken.run.nextId_le sound.hub)

theorem Sound.move (sound : service.Sound) (move : Move) : (service.move move).Sound := by
  cases move with
  | arrive timestamp socket arrival =>
    exact (service.take_spec timestamp socket arrival).sound sound
  | flush =>
    have run := service.moveEvents_run .flush
    exact
      { hub := run.sound sound.hub
        bounded := fun known => Nat.lt_of_lt_of_le (sound.bounded known) (run.nextId_le sound.hub) }

theorem Sound.follow (sound : service.Sound) (moves : List Move) : (service.follow moves).Sound :=
  foldl_invariant Sound (fun _ move held => Sound.move held move) sound moves

end Service

end ChatHub
