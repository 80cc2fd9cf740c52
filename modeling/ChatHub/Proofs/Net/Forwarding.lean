import ChatHub.Proofs.Hub.Members
import ChatHub.Proofs.Net.Moves
/-!
The tasks that forward what waits for a connection, one message in each of their turns, while
something may arrive at any socket in between. Main statement: `forwards_outgoing`, by which enough
turns of one such task send what the hub sends when it is asked for all that waits.
-/

set_option autoImplicit false

namespace ChatHub

/-- A message as the peers of a listener get it. -/
def Listener.parcel : Listener → Stamped → Parcel
  | .tcp, message => .line (TcpPeer.encode message)
  | .webSocket, message => .text message.text

/-- The connection behind a socket and the listener that it came by; a request has none yet. -/
def Served.speaker? : Served → Option (ConnectionId × Listener)
  | .tcp peer => some (peer.connection, .tcp)
  | .request _ => none
  | .webSocket peer _ => some (peer.connection, .webSocket)

private theorem Served.connection?_eq (served : Served) :
    served.connection? = served.speaker?.map Prod.fst := by
  cases served <;> rfl

namespace Service

def speakerAt? (service : Service) (socket : Nat) : Option (ConnectionId × Listener) :=
  (service.sockets.get? socket).bind Served.speaker?

/-- A turn of the task that forwards to a socket: it takes one message, if one waits, and sends it
to the connection there. -/
def forward (service : Service) (socket : Nat) : List (ConnectionId × Parcel) × Service :=
  match service.speakerAt? socket with
  | none => ([], service)
  | some (id, listener) =>
    match service.hub.poll id with
    | (some (.message message), hub) => ([(id, listener.parcel message)], { service with hub })
    | _ => ([], service)

/-- What happens next: something at a socket, or a turn of a task that forwards. -/
inductive Turn where
  | arrive (timestamp : String) (socket : Nat) (arrival : Arrival)
  | forward (socket : Nat)
  deriving DecidableEq, Repr

def turn (service : Service) : Turn → Service
  | .arrive timestamp socket arrival => (service.take timestamp socket arrival).2
  | .forward socket => (service.forward socket).2

def play (service : Service) (turns : List Turn) : Service :=
  turns.foldl turn service

/-- What the turns of a run give out, in order, each in the state that it finds. -/
def along {α : Type} (emit : Service → Turn → List α) : Service → List Turn → List α
  | _, [] => []
  | service, turn :: rest => emit service turn ++ along emit (service.turn turn) rest

def forwardEvents (service : Service) (socket : Nat) : List Hub.Event :=
  match service.speakerAt? socket with
  | none => []
  | some (id, _) =>
    match service.hub.poll id with
    | (some (.message message), _) => [.took id [message]]
    | _ => []

def turnEvents (service : Service) : Turn → List Hub.Event
  | .arrive timestamp socket arrival => service.takeEvents timestamp socket arrival
  | .forward socket => service.forwardEvents socket

/-- The broadcasts that a turn sends, and to which connection. -/
def deliveries (service : Service) : Turn → List (ConnectionId × Parcel)
  | .arrive _ _ _ => []
  | .forward socket => (service.forward socket).1

/-- The broadcasts sent to one connection. -/
def sentTo (id : ConnectionId) (sent : List (ConnectionId × Parcel)) : List Parcel :=
  (sent.filter fun delivery => delivery.1 = id).map Prod.snd

variable {service : Service} {socket : Nat}

theorem connectionAt?_eq (service : Service) (socket : Nat) :
    service.connectionAt? socket = (service.speakerAt? socket).map Prod.fst := by
  rw [connectionAt?, speakerAt?]
  cases service.sockets.get? socket with
  | none => rfl
  | some served => exact served.connection?_eq

theorem play_append (service : Service) (earlier later : List Turn) :
    service.play (earlier ++ later) = (service.play earlier).play later :=
  List.foldl_append

theorem along_append {α : Type} (emit : Service → Turn → List α) (service : Service)
    (earlier later : List Turn) :
    along emit service (earlier ++ later) =
      along emit service earlier ++ along emit (service.play earlier) later := by
  induction earlier generalizing service with
  | nil => rfl
  | cons turn rest ih => rw [List.cons_append, along, ih, along, List.append_assoc]; rfl

theorem sentTo_append (id : ConnectionId) (earlier later : List (ConnectionId × Parcel)) :
    sentTo id (earlier ++ later) = sentTo id earlier ++ sentTo id later := by
  rw [sentTo, List.filter_append, List.map_append, sentTo, sentTo]

/-! ## One turn of a forwarder -/

/-- A forwarder sends the first message that waits, or there is none. -/
theorem forward_cases (service : Service) (socket : Nat) :
    (∃ id listener message hub, service.speakerAt? socket = some (id, listener) ∧
      service.hub.poll id = (some (.message message), hub) ∧
      service.turn (.forward socket) = { service with hub } ∧
      service.turnEvents (.forward socket) = [.took id [message]] ∧
      service.deliveries (.forward socket) = [(id, listener.parcel message)]) ∨
    (service.turn (.forward socket) = service ∧ service.turnEvents (.forward socket) = [] ∧
      service.deliveries (.forward socket) = [] ∧
      ∀ id listener, service.speakerAt? socket = some (id, listener) →
        service.hub.queued id = []) := by
  cases speaks : service.speakerAt? socket with
  | none =>
    right
    simp [turn, turnEvents, deliveries, forward, forwardEvents, speaks]
  | some speaker =>
    obtain ⟨id, listener⟩ := speaker
    rcases service.hub.poll_cases id with
      ⟨message, mailbox, rest, _, _, _, polled⟩ | ⟨empty, polled⟩
    · left
      refine ⟨id, listener, message, _, rfl, polled, ?_⟩
      simp [turn, turnEvents, deliveries, forward, forwardEvents, speaks, polled]
    · right
      have idle : service.forward socket = ([], service) ∧ service.forwardEvents socket = [] := by
        simp only [forward, forwardEvents, speaks, polled]
        cases (service.hub.mailboxes.get? id).isNone || !service.hub.isAttached id with
        | true => exact ⟨rfl, rfl⟩
        | false => exact ⟨rfl, rfl⟩
      refine ⟨congrArg Prod.snd idle.1, idle.2, congrArg Prod.fst idle.1, ?_⟩
      intro other by_ same
      cases same
      exact empty

/-- What a forwarder sends is the first message that waits. -/
theorem of_forward {later : Service} {given : ConnectionId × Parcel}
    (gives : service.forward socket = ([given], later)) :
    ∃ id listener message hub, service.speakerAt? socket = some (id, listener) ∧
      service.hub.poll id = (some (.message message), hub) ∧ later = { service with hub } ∧
      given = (id, listener.parcel message) := by
  have next : service.turn (.forward socket) = later := congrArg Prod.snd gives
  have gave : service.deliveries (.forward socket) = [given] := congrArg Prod.fst gives
  rcases service.forward_cases socket with
    ⟨id, listener, message, hub, speaks, polled, left, _, sent⟩ | ⟨_, _, nothing, _⟩
  · exact ⟨id, listener, message, hub, speaks, polled, next.symm.trans left,
      List.singleton_inj.mp (gave.symm.trans sent)⟩
  · cases gave.symm.trans nothing

theorem turn_run (service : Service) (turn : Turn) :
    Hub.Run service.hub (service.turnEvents turn) (service.turn turn).hub := by
  cases turn with
  | arrive timestamp socket arrival => exact (service.take_spec timestamp socket arrival).run
  | forward socket =>
    rcases service.forward_cases socket with
      ⟨id, _, message, hub, _, polled, next, events, _⟩ | ⟨next, events, _, _⟩
    · rw [next, events]
      exact (Hub.Step.poll polled).run
    · rw [next, events]
      exact .nil

theorem play_run (service : Service) (turns : List Turn) :
    Hub.Run service.hub (along turnEvents service turns) (service.play turns).hub := by
  induction turns generalizing service with
  | nil => exact .nil
  | cons turn rest ih => exact (service.turn_run turn).append (ih (service.turn turn))

/-! ## All that waits -/

/-- The task of one socket, taking turns by itself until nothing waits, sends what waited, and
leaves all other mailboxes as they are. -/
theorem forward_replicate {id : ConnectionId} {listener : Listener}
    (speaks : service.speakerAt? socket = some (id, listener)) {count : Nat}
    (all : (service.hub.queued id).length = count) :
    along deliveries service (List.replicate count (.forward socket)) =
        (service.hub.queued id).map (fun message => (id, listener.parcel message)) ∧
      ∀ other, (service.play (List.replicate count (.forward socket))).hub.queued other =
        if other = id then [] else service.hub.queued other := by
  induction count generalizing service with
  | zero =>
    have empty := List.length_eq_zero_iff.mp all
    refine ⟨by rw [empty]; rfl, fun other => ?_⟩
    by_cases same : other = id
    · rw [if_pos same, same]
      exact empty
    · rw [if_neg same]
      rfl
  | succ fewer ih =>
    rcases service.forward_cases socket with
      ⟨_, _, message, hub, same, polled, next, _, sent⟩ | ⟨_, _, _, empty⟩
    · cases speaks.symm.trans same
      have front := Hub.queued_of_poll polled id
      rw [if_pos rfl, List.singleton_append] at front
      rw [front, List.length_cons] at all
      have stays : ({ service with hub } : Service).speakerAt? socket = some (id, listener) :=
        speaks
      obtain ⟨later, left⟩ := ih stays (Nat.succ.inj all)
      rw [List.replicate_succ, along, next, sent, later, front]
      refine ⟨rfl, fun other => ?_⟩
      rw [play, List.foldl_cons, next]
      refine (left other).trans ?_
      by_cases isIts : other = id
      · rw [if_pos isIts, if_pos isIts]
      · rw [if_neg isIts, if_neg isIts, Hub.queued_of_poll polled other, if_neg isIts,
          List.nil_append]
    · rw [empty id listener speaks] at all
      cases all

/-- Asked for all that waits at a socket, the hub sends what the turns of its task send. -/
theorem forwards_outgoing {served : Served} (found : service.sockets.get? socket = some served)
    (isOpen : served.isOpen = true) {id : ConnectionId} {listener : Listener}
    (speaks : served.speaker? = some (id, listener)) :
    let count := (service.hub.queued id).length
    (along deliveries service (List.replicate count (.forward socket))).map Prod.snd =
        (served.outgoing service.hub).1 ∧
      ∀ other, (service.play (List.replicate count (.forward socket))).hub.queued other =
        (served.outgoing service.hub).2.queued other := by
  have speaksThere : service.speakerAt? socket = some (id, listener) := by
    rw [speakerAt?, found]
    exact speaks
  obtain ⟨sent, left⟩ := forward_replicate speaksThere rfl
  have drained : ∀ other, (service.hub.drain id).2.queued other =
      if other = id then [] else service.hub.queued other := by
    intro other
    rw [Hub.queued, Hub.drain_mailbox]
    by_cases same : other = id
    · rw [if_pos same, if_pos same]
      cases service.hub.mailboxes.get? other <;> rfl
    · rw [if_neg same, if_neg same]
      rfl
  intro count
  rw [sent]
  cases served with
  | request held => cases speaks
  | tcp peer =>
    cases speaks
    have open_ : peer.isOpen = true := isOpen
    simp only [Served.outgoing, TcpPeer.outgoing, open_, if_true]
    refine ⟨?_, fun other => (left other).trans (drained other).symm⟩
    simp [Hub.drain, Listener.parcel, Function.comp_def]
  | webSocket peer reader =>
    cases speaks
    have open_ : peer.isOpen = true := isOpen
    simp only [Served.outgoing, SocketPeer.outgoing, open_, if_true]
    refine ⟨?_, fun other => (left other).trans (drained other).symm⟩
    simp [Hub.drain, Listener.parcel, Function.comp_def]

end Service

end ChatHub
