import ChatHub.Proofs.Hub.Precedence
import ChatHub.Proofs.Net.FramePublishing
import Mathlib.Data.List.Forall2
/-!
The hub behind both of its listeners with a task for each connection, as several threads run them.
A task makes the calls that come of what it has read, one after the other, before it reads again,
and a second one forwards what waits in the mailbox. Calls are taken in the atomic steps of
`Interleaved`, so that those of other tasks may come between any two of them. Main statements:
`Concurrent.orderly_of_run`, for every moment of a run, and `Concurrent.exists_run_of_play`, by
which a service that takes one arrival after the other is such a run.
-/

set_option autoImplicit false

namespace ChatHub

open Wire
open Service (sentTo)

/-- A call on the hub that a connection makes in its own name. -/
inductive Call where
  | enroll
  | line (message : Inbound)
  | frame (text : String)
  | detach
  | abandon
  deriving DecidableEq, Repr

namespace Call

/-- What a connection says by a call, if it says something. -/
def occasion? (id : ConnectionId) (timestamp : String) : Call → Option Occasion
  | .line message => some ⟨.line id message, timestamp⟩
  | .frame text => some ⟨.frame id text, timestamp⟩
  | .enroll | .detach | .abandon => none

/-- The step by which a call begins. -/
def move (id : ConnectionId) (timestamp : String) : Call → Interleaved.Move
  | .enroll => .enroll id
  | .line message => .snapshot id message timestamp
  | .frame text => .snapshot id ⟨SocketPeer.sender id, text⟩ timestamp
  | .detach => .detach id
  | .abandon => .dropMailbox id

end Call

/-- The task behind a socket, with the calls that it makes before it reads again. -/
structure Task where
  side : Served
  calls : List Call := []

namespace Task

/-- The calls of a connection that says something and then may leave. -/
def saying (said : List Call) (leaves : Bool) : List Call :=
  said ++ if leaves then [.detach, .abandon] else []

def accept (new : ConnectionId) : Listener → Task
  | .webSocket => { side := .request [] }
  | .tcp => { side := .tcp { connection := new }, calls := [.enroll] }

/-- How a task goes on once it has read what arrived, absent if it gives its socket up. A request
that is accepted becomes the connection `new`. -/
def read (new : ConnectionId) (side : Served) (arrival : Arrival) : Option Task :=
  match side, arrival with
  | .tcp peer, arrival =>
    let added := Arrival.adds peer.buffer arrival
    some
      { side := .tcp { peer with buffer := (peer.buffer.feed (Arrival.sent [arrival])).1 }
        calls := saying ((beforeError added).map .line) (arrival.isLast || hasError added) }
  | .request held, .bytes chunk =>
    match Served.splitHead? (held ++ chunk) with
    | none => some { side := .request (held ++ chunk) }
    | some (head, behind) =>
      if (Handshake.answer (head.map fun byte => Char.ofNat byte.toNat)).isAccepted then
        let (reader, events) := FrameReader.receive {} behind
        some
          { side := .webSocket { connection := new } reader
            calls := .enroll ::
              saying ((SocketEvent.texts events).map .frame) (events.any FrameReader.isLast) }
      else none
  | .request held, .accepted _ => some { side := .request held }
  | .request _, .ended | .request _, .broken => none
  | .webSocket peer reader, arrival =>
    let events := Arrival.addsFrames reader arrival
    some
      { side := .webSocket peer (Arrival.advance reader arrival)
        calls := saying ((SocketEvent.texts events).map .frame)
          (events.any FrameReader.isLast) }

end Task

/-- What the tasks share, and the tasks by their sockets. The last two parts are records, on which
no move depends: the broadcasts that were sent, and what was said, once for each publish that was
begun. Answers to requests and to pings are left out. -/
structure Concurrent where
  shared : Interleaved.State := {}
  tasks : Roster Nat Task := {}
  sent : List (ConnectionId × Parcel) := []
  said : List Occasion := []

namespace Concurrent

/-- What a thread does next: a task reads, begins its next call, or goes on with a publish, or a
forwarder takes a turn. -/
inductive Move where
  | arrive (socket : Nat) (arrival : Arrival)
  | call (socket : Nat) (timestamp : String)
  | deliver (socket : Nat) (target : ConnectionId × ConnectionId)
  | finish (socket : Nat)
  | forward (socket : Nat)
  deriving DecidableEq, Repr

def speakerAt? (state : Concurrent) (socket : Nat) : Option (ConnectionId × Listener) :=
  (state.tasks.get? socket).bind fun task => task.side.speaker?

/-- Puts back a task, unless it gave its socket up. -/
def settle (state : Concurrent) (socket : Nat) (task? : Option Task) : Concurrent :=
  { state with
    tasks :=
      match task? with
      | some task => state.tasks.put socket task
      | none => state.tasks.erase socket }

/-- The task that reads an arrival goes on. If it is a connection only now, it takes an id. -/
def goOn (state : Concurrent) (socket : Nat) (task? : Option Task) : Option Concurrent :=
  let joins :=
    (state.speakerAt? socket).isNone && (task?.bind fun task => task.side.speaker?).isSome
  (if joins then state.shared.step? .allocate else some state.shared).map fun shared =>
    { state with shared }.settle socket task?

/-- Takes a step of the hub in the name of the connection behind a socket. -/
def share (state : Concurrent) (socket : Nat) (move : ConnectionId → Interleaved.Move) :
    Option Concurrent := do
  let (id, _) ← state.speakerAt? socket
  let shared ← state.shared.step? (move id)
  some { state with shared }

def step? (state : Concurrent) : Move → Option Concurrent
  | .arrive socket arrival =>
    let new := state.shared.hub.nextId
    match state.tasks.get? socket, arrival with
    | none, .accepted listener => state.goOn socket (some (.accept new listener))
    | some ⟨side, []⟩, arrival => state.goOn socket (Task.read new side arrival)
    | none, _ | some ⟨_, _ :: _⟩, _ => none
  | .call socket timestamp =>
    match state.tasks.get? socket, state.speakerAt? socket with
    | some ⟨side, call :: rest⟩, some (id, _) =>
      if state.shared.flights.contains id then none
      else
        (state.shared.step? (call.move id timestamp)).map fun shared =>
          { state with shared, said := state.said ++ (call.occasion? id timestamp).toList }.settle
            socket (if call = Call.abandon then none else some ⟨side, rest⟩)
    | _, _ => none
  | .deliver socket target => state.share socket fun id => .deliver id target
  | .finish socket => state.share socket fun id => .finish id
  | .forward socket =>
    match state.speakerAt? socket with
    | none => none
    | some (id, listener) =>
      match state.shared.hub.poll id with
      | (some (.message message), _) =>
        (state.shared.step? (.take id)).map fun shared =>
          { state with shared, sent := state.sent ++ [(id, listener.parcel message)] }
      | _ => none

def run? (state : Concurrent) (moves : List Move) : Option Concurrent :=
  moves.foldlM step? state

/-! ## Moves -/

variable {state next : Concurrent} {socket : Nat} {id : ConnectionId} {listener : Listener}

theorem speakerAt?_settle (task? : Option Task) (other : Nat) :
    (state.settle socket task?).speakerAt? other =
      if other = socket then task?.bind fun task => task.side.speaker?
      else state.speakerAt? other := by
  have found : (state.settle socket task?).tasks.get? other =
      if other = socket then task? else state.tasks.get? other := by
    by_cases same : other = socket
    · subst same
      cases task? <;> simp [settle]
    · cases task? <;> simp [settle, same, Roster.get?_put_of_ne, Roster.get?_erase_of_ne]
  rw [speakerAt?, found]
  split <;> rfl

/-- What a move does to the shared part, to the connections behind the sockets and to the
records. -/
inductive Moved (state : Concurrent) : Concurrent → Prop
  /-- A task reads, or a request is begun or given up. -/
  | reads {next : Concurrent} : next.shared = state.shared → next.sent = state.sent →
      next.said = state.said →
      (∀ socket, next.speakerAt? socket = state.speakerAt? socket) → Moved state next
  | joins {next : Concurrent} {socket : Nat} {listener : Listener} :
      state.shared.step? .allocate = some next.shared → next.sent = state.sent →
      next.said = state.said →
      (∀ other, next.speakerAt? other =
        if other = socket then some (state.shared.hub.nextId, listener)
        else state.speakerAt? other) → Moved state next
  | calls {next : Concurrent} {socket : Nat} {id : ConnectionId} {listener : Listener}
      {call : Call} {timestamp : String} :
      state.speakerAt? socket = some (id, listener) →
      state.shared.step? (call.move id timestamp) = some next.shared → next.sent = state.sent →
      next.said = state.said ++ (call.occasion? id timestamp).toList →
      (∀ other, next.speakerAt? other =
        if other = socket ∧ call = .abandon then none else state.speakerAt? other) →
      Moved state next
  | goesOn {next : Concurrent} {id : ConnectionId} {move : Interleaved.Move} :
      ((∃ target, move = .deliver id target) ∨ move = .finish id) →
      state.shared.step? move = some next.shared → next.sent = state.sent →
      next.said = state.said →
      (∀ socket, next.speakerAt? socket = state.speakerAt? socket) → Moved state next
  | forwards {next : Concurrent} {socket : Nat} {id : ConnectionId} {listener : Listener}
      {message : Stamped} {hub : Hub} :
      state.speakerAt? socket = some (id, listener) →
      state.shared.hub.poll id = (some (.message message), hub) →
      state.shared.step? (.take id) = some next.shared →
      next.sent = state.sent ++ [(id, listener.parcel message)] → next.said = state.said →
      (∀ socket, next.speakerAt? socket = state.speakerAt? socket) → Moved state next

/-- A move is at most one step of the shared part. -/
theorem Moved.reaches {first : Interleaved.State} (moved : Moved state next)
    (reached : Interleaved.Reaches first state.shared) :
    Interleaved.Reaches first next.shared := by
  cases moved with
  | reads shared =>
    rw [shared]
    exact reached
  | joins stepped | calls _ stepped | goesOn _ stepped | forwards _ _ stepped =>
    exact reached.step _ stepped

/-- A task is behind the same connection as before, or it becomes the new one. -/
def Succeeds (before : Option (ConnectionId × Listener)) (new : ConnectionId)
    (task? : Option Task) : Prop :=
  (task?.bind fun task => task.side.speaker?) = before ∨
    before = none ∧
      ∃ listener, (task?.bind fun task => task.side.speaker?) = some (new, listener)

private theorem succeeds_accept (new : ConnectionId) (listener : Listener) :
    Succeeds none new (some (Task.accept new listener)) := by
  cases listener with
  | tcp => exact .inr ⟨rfl, .tcp, rfl⟩
  | webSocket => exact .inl rfl

private theorem succeeds_read (new : ConnectionId) (side : Served) (arrival : Arrival) :
    Succeeds side.speaker? new (Task.read new side arrival) := by
  cases side with
  | tcp peer | webSocket peer reader => exact .inl rfl
  | request held =>
    cases arrival with
    | accepted listener | ended | broken => exact .inl rfl
    | bytes chunk =>
      simp only [Task.read]
      split
      · exact .inl rfl
      · split
        · exact .inr ⟨rfl, .webSocket, rfl⟩
        · exact .inl rfl

private theorem moved_of_goOn {task? : Option Task}
    (succeeds : Succeeds (state.speakerAt? socket) state.shared.hub.nextId task?)
    (went : state.goOn socket task? = some next) : Moved state next := by
  rcases succeeds with same | ⟨nobody, listener, new⟩
  · have noJoin : ((state.speakerAt? socket).isNone &&
        (task?.bind fun task => task.side.speaker?).isSome) = false := by
      rw [same]
      cases state.speakerAt? socket <;> rfl
    rw [goOn, noJoin] at went
    cases went
    refine .reads rfl rfl rfl fun other => (speakerAt?_settle task? other).trans ?_
    split
    · rename_i isIts
      rw [isIts, same]
    · rfl
  · rw [goOn, nobody, new] at went
    cases went
    refine @Moved.joins state _ socket listener rfl rfl rfl fun other =>
      (speakerAt?_settle task? other).trans ?_
    rw [new]
    rfl

private theorem moved_of_share {move : ConnectionId → Interleaved.Move}
    (isIts : ∀ id, (∃ target, move id = .deliver id target) ∨ move id = .finish id)
    (shared : state.share socket move = some next) : Moved state next := by
  simp only [share, Option.bind_eq_bind, Option.bind_eq_some_iff] at shared
  obtain ⟨⟨id, _⟩, _, hub, moved, rest⟩ := shared
  cases rest
  exact .goesOn (isIts id) moved rfl rfl fun _ => rfl

private theorem moved_of_step {move : Move} (stepped : state.step? move = some next) :
    Moved state next := by
  cases move with
  | arrive socket arrival =>
    simp only [step?] at stepped
    split at stepped
    · rename_i listener nobody
      have vacant : state.speakerAt? socket = none := by rw [speakerAt?, nobody]; rfl
      exact moved_of_goOn (vacant ▸ succeeds_accept _ listener) stepped
    · rename_i side found
      have known : state.speakerAt? socket = side.speaker? := by rw [speakerAt?, found]; rfl
      exact moved_of_goOn (known ▸ succeeds_read _ side _) stepped
    · cases stepped
    · cases stepped
  | call socket timestamp =>
    simp only [step?] at stepped
    split at stepped
    · rename_i side call rest id listener found speaks
      split at stepped
      · cases stepped
      · obtain ⟨shared, moved, same⟩ := Option.map_eq_some_iff.mp stepped
        cases same
        refine .calls speaks moved rfl rfl fun other => (speakerAt?_settle _ other).trans ?_
        by_cases here : other = socket
        · by_cases ends : call = .abandon
          · rw [if_pos here, if_pos ends, if_pos ⟨here, ends⟩]
            rfl
          · rw [if_pos here, if_neg ends, if_neg fun both => ends both.2, here, speakerAt?, found]
            rfl
        · rw [if_neg here, if_neg fun both => here both.1]
          rfl
    · cases stepped
  | deliver socket target => exact moved_of_share (fun id => .inl ⟨target, rfl⟩) stepped
  | finish socket => exact moved_of_share (fun id => .inr rfl) stepped
  | forward socket =>
    simp only [step?] at stepped
    split at stepped
    · cases stepped
    · rename_i id listener speaks
      split at stepped
      · rename_i message hub polled
        obtain ⟨shared, moved, same⟩ := Option.map_eq_some_iff.mp stepped
        cases same
        exact .forwards speaks polled moved rfl rfl fun _ => rfl
      · cases stepped

/-! ## Every moment of a run -/

/-- Whether a publication is of what was said on an occasion. -/
def IsOf (publication : Interleaved.Publication) (occasion : Occasion) : Prop :=
  publication.origin = occasion.utterance.origin ∧ publication.message = occasion.message

/-- What every moment of a run finds: nobody is behind two sockets, whoever is behind one owns its
mailbox, and what it was sent is what was taken out of that. -/
structure Orderly (state : Concurrent) : Prop where
  reached : Interleaved.Reaches {} state.shared
  unique : ∀ {first second id one other}, state.speakerAt? first = some (id, one) →
    state.speakerAt? second = some (id, other) → first = second
  bounded : ∀ {socket id listener}, state.speakerAt? socket = some (id, listener) →
    id < state.shared.hub.nextId
  owned : ∀ {socket id listener}, state.speakerAt? socket = some (id, listener) →
    state.shared.hub.isOpen id = true
  streams : ∀ {socket id listener}, state.speakerAt? socket = some (id, listener) →
    sentTo id state.sent = (state.shared.taken id).map listener.parcel
  fresh : ∀ {id}, state.shared.hub.nextId ≤ id →
    sentTo id state.sent = [] ∧ state.shared.taken id = []
  spoken : List.Forall₂ IsOf state.shared.publications state.said

theorem orderly_empty : ({} : Concurrent).Orderly where
  reached := .refl
  unique speaks := by cases speaks
  bounded speaks := by cases speaks
  owned speaks := by cases speaks
  streams speaks := by cases speaks
  fresh _ := ⟨rfl, rfl⟩
  spoken := .nil

/-- Where nobody new comes and nothing is sent, only the mailboxes have to be looked at. -/
theorem Orderly.keep (orderly : state.Orderly)
    (reached : Interleaved.Reaches {} next.shared)
    (later : state.shared.hub.nextId ≤ next.shared.hub.nextId)
    (stays : ∀ {socket id listener}, next.speakerAt? socket = some (id, listener) →
      state.speakerAt? socket = some (id, listener) ∧ next.shared.hub.isOpen id = true)
    (taken : next.shared.taken = state.shared.taken) (sent : next.sent = state.sent)
    (spoken : List.Forall₂ IsOf next.shared.publications next.said) : next.Orderly where
  reached := reached
  unique one other := orderly.unique (stays one).1 (stays other).1
  bounded speaks := Nat.lt_of_lt_of_le (orderly.bounded (stays speaks).1) later
  owned speaks := (stays speaks).2
  streams speaks := by
    rw [sent, taken]
    exact orderly.streams (stays speaks).1
  fresh late := by
    rw [sent, taken]
    exact orderly.fresh (Nat.le_trans later late)
  spoken := spoken

theorem Call.move_of_occasion {call : Call} {occasion : Occasion} {timestamp : String}
    (speaks : call.occasion? id timestamp = some occasion) :
    call.move id timestamp = .snapshot id occasion.utterance.inbound timestamp ∧
      occasion.utterance.origin = id ∧ occasion.timestamp = timestamp := by
  cases call with
  | line message | frame text =>
    cases speaks
    exact ⟨rfl, rfl, rfl⟩
  | enroll | detach | abandon => cases speaks

theorem Call.move_ne_snapshot {call : Call} {timestamp : String}
    (silent : call.occasion? id timestamp = none) (origin : ConnectionId) (message : Inbound)
    (moment : String) : call.move id timestamp ≠ .snapshot origin message moment := by
  cases call with
  | line message | frame text => cases silent
  | enroll | detach | abandon =>
    intro same
    cases same

private theorem publications_of_snapshot {shared later : Interleaved.State} {message : Inbound}
    {timestamp : String} (moved : shared.step? (.snapshot id message timestamp) = some later) :
    later.publications =
      shared.publications ++ [⟨id, message.stamp timestamp, shared.hub.registry⟩] := by
  simp only [Interleaved.State.step?] at moved
  split at moved
  · cases moved
  · cases moved
    rfl

/-- Every publish that begins is of what the connection says then. -/
theorem Orderly.spoken_call (orderly : state.Orderly) {call : Call} {timestamp : String}
    {shared : Interleaved.State}
    (moved : state.shared.step? (call.move id timestamp) = some shared) :
    List.Forall₂ IsOf shared.publications (state.said ++ (call.occasion? id timestamp).toList) := by
  cases speaks : call.occasion? id timestamp with
  | none =>
    have same := (Interleaved.frame_of_step moved).publications (Call.move_ne_snapshot speaks)
    rw [same, Option.toList_none, List.append_nil]
    exact orderly.spoken
  | some occasion =>
    obtain ⟨isSnapshot, isIts, now⟩ := Call.move_of_occasion speaks
    rw [publications_of_snapshot (isSnapshot ▸ moved)]
    refine List.rel_append orderly.spoken (.cons ⟨isIts.symm, ?_⟩ .nil)
    rw [Occasion.message, now]

theorem Orderly.joins (orderly : state.Orderly)
    (allocated : state.shared.step? .allocate = some next.shared) (sent : next.sent = state.sent)
    (said : next.said = state.said)
    (speakers : ∀ other, next.speakerAt? other =
      if other = socket then some (state.shared.hub.nextId, listener)
      else state.speakerAt? other) : next.Orderly := by
  have frame := Interleaved.frame_of_step allocated
  have taken : next.shared.taken = state.shared.taken := funext fun _ => frame.taken (by simp)
  have hub : next.shared.hub = state.shared.hub.allocate.2 :=
    (congrArg Interleaved.State.hub (Option.some.inj allocated)).symm
  have opened : next.shared.hub.isOpen state.shared.hub.nextId = true := by
    rw [hub, Hub.isOpen, Hub.allocate_mailbox, if_pos rfl]
    rfl
  -- Whoever is behind a socket was there before, or it is the new one.
  have either : ∀ {other id its}, next.speakerAt? other = some (id, its) →
      (other ≠ socket ∧ state.speakerAt? other = some (id, its)) ∨
        (other = socket ∧ id = state.shared.hub.nextId) := by
    intro other id its speaks
    rw [speakers] at speaks
    split at speaks
    · cases speaks
      exact .inr ⟨‹_›, rfl⟩
    · exact .inl ⟨‹_›, speaks⟩
  constructor
  · exact orderly.reached.step _ allocated
  · intro first second id one two there elsewhere
    rcases either there with ⟨_, old⟩ | ⟨isFirst, new⟩
    · rcases either elsewhere with ⟨_, older⟩ | ⟨_, new⟩
      · exact orderly.unique old older
      · exact absurd (orderly.bounded old) (new ▸ Nat.lt_irrefl _)
    · rcases either elsewhere with ⟨_, old⟩ | ⟨isSecond, _⟩
      · exact absurd (orderly.bounded old) (new ▸ Nat.lt_irrefl _)
      · rw [isFirst, isSecond]
  · intro other id its speaks
    rw [hub]
    rcases either speaks with ⟨_, old⟩ | ⟨_, rfl⟩
    · exact Nat.lt_succ_of_lt (orderly.bounded old)
    · exact Nat.lt_succ_self _
  · intro other id its speaks
    rcases either speaks with ⟨_, old⟩ | ⟨_, rfl⟩
    · exact frame.isOpen (by simp) (orderly.owned old)
    · exact opened
  · intro other id its speaks
    rw [sent, taken]
    rcases either speaks with ⟨_, old⟩ | ⟨_, rfl⟩
    · exact orderly.streams old
    · obtain ⟨unsent, untaken⟩ := orderly.fresh (Nat.le_refl _)
      rw [unsent, untaken]
      rfl
  · intro id late
    rw [sent, taken]
    exact orderly.fresh (Nat.le_trans frame.nextId late)
  · rw [frame.publications (by simp), said]
    exact orderly.spoken

theorem Orderly.forwards (orderly : state.Orderly) {message : Stamped} {hub : Hub}
    (speaks : state.speakerAt? socket = some (id, listener))
    (polled : state.shared.hub.poll id = (some (.message message), hub))
    (took : state.shared.step? (.take id) = some next.shared)
    (sent : next.sent = state.sent ++ [(id, listener.parcel message)])
    (said : next.said = state.said)
    (speakers : ∀ other, next.speakerAt? other = state.speakerAt? other) : next.Orderly := by
  have frame := Interleaved.frame_of_step took
  have own : next.shared.taken id = state.shared.taken id ++ [message] := by
    simp only [Interleaved.State.step?, polled, Option.some.injEq] at took
    rw [← took]
    exact Interleaved.extend_self
  have sentOwn : sentTo id next.sent = sentTo id state.sent ++ [listener.parcel message] := by
    rw [sent, Service.sentTo_append]
    simp [sentTo]
  have others : ∀ {other}, other ≠ id → sentTo other next.sent = sentTo other state.sent ∧
      next.shared.taken other = state.shared.taken other := by
    intro other different
    refine ⟨?_, frame.taken fun same => different (Interleaved.Move.take.inj same).symm⟩
    rw [sent, Service.sentTo_append]
    simp [sentTo, Ne.symm different]
  constructor
  · exact orderly.reached.step _ took
  · intro first second id one two there elsewhere
    rw [speakers] at there elsewhere
    exact orderly.unique there elsewhere
  · intro other id its there
    rw [speakers] at there
    exact Nat.lt_of_lt_of_le (orderly.bounded there) frame.nextId
  · intro other id its there
    rw [speakers] at there
    exact frame.isOpen (by simp) (orderly.owned there)
  · intro other another its there
    rw [speakers] at there
    by_cases same : another = id
    · subst same
      obtain rfl := orderly.unique there speaks
      cases there.symm.trans speaks
      rw [sentOwn, own, List.map_append, orderly.streams speaks]
      rfl
    · rw [(others same).1, (others same).2]
      exact orderly.streams there
  · intro other late
    have early := Nat.lt_of_lt_of_le (orderly.bounded speaks) frame.nextId
    have different : other ≠ id := fun same => absurd early (Nat.not_lt.mpr (same ▸ late))
    rw [(others different).1, (others different).2]
    exact orderly.fresh (Nat.le_trans frame.nextId late)
  · rw [frame.publications (by simp), said]
    exact orderly.spoken

theorem Orderly.step (orderly : state.Orderly) (moved : Moved state next) : next.Orderly := by
  have reached := moved.reaches orderly.reached
  cases moved with
  | reads shared sent said speakers =>
    refine orderly.keep reached ?_ (fun speaks => ?_) ?_ sent ?_
    · rw [shared]
    · rw [speakers] at speaks
      rw [shared]
      exact ⟨speaks, orderly.owned speaks⟩
    · rw [shared]
    · rw [shared, said]
      exact orderly.spoken
  | joins allocated sent said speakers => exact orderly.joins allocated sent said speakers
  | @calls socket id listener call timestamp speaks stepped sent said speakers =>
    have frame := Interleaved.frame_of_step stepped
    refine orderly.keep reached frame.nextId (fun there => ?_)
      (funext fun _ => frame.taken (by cases call <;> simp [Call.move])) sent ?_
    · rw [speakers] at there
      split at there
      · cases there
      · rename_i stays
        refine ⟨there, frame.isOpen (fun drops => ?_) (orderly.owned there)⟩
        -- Only its own connection gives up a mailbox, and it is behind one socket only.
        cases call with
        | abandon =>
          cases drops
          exact stays ⟨orderly.unique there speaks, rfl⟩
        | enroll | line message | frame text | detach => cases drops
    · rw [said]
      exact orderly.spoken_call stepped
  | goesOn isIts stepped sent said speakers =>
    have frame := Interleaved.frame_of_step stepped
    refine orderly.keep reached frame.nextId (fun there => ?_)
      (funext fun _ => frame.taken ?_) sent ?_
    · rw [speakers] at there
      refine ⟨there, frame.isOpen ?_ (orderly.owned there)⟩
      rcases isIts with ⟨target, rfl⟩ | rfl <;> simp
    · rcases isIts with ⟨target, rfl⟩ | rfl <;> simp
    · rw [said, frame.publications]
      · exact orderly.spoken
      · rcases isIts with ⟨target, rfl⟩ | rfl <;> simp
  | forwards speaks polled took sent said speakers =>
    exact orderly.forwards speaks polled took sent said speakers

theorem run?_cons {middle : Concurrent} {move : Move} {rest : List Move}
    (stepped : state.step? move = some middle) (ran : middle.run? rest = some next) :
    state.run? (move :: rest) = some next :=
  Option.bind_eq_some_iff.mpr ⟨middle, stepped, ran⟩

theorem run?_append (state : Concurrent) (first later : List Move) :
    state.run? (first ++ later) = (state.run? first).bind fun middle => middle.run? later :=
  List.foldlM_append

private theorem reaches_of_run {first : Interleaved.State} {moves : List Move}
    (ran : state.run? moves = some next) (reached : Interleaved.Reaches first state.shared) :
    Interleaved.Reaches first next.shared := by
  induction moves generalizing state with
  | nil =>
    cases ran
    exact reached
  | cons move rest ih =>
    obtain ⟨moved, head, later⟩ := Option.bind_eq_some_iff.mp ran
    exact ih later ((moved_of_step head).reaches reached)

theorem orderly_of_run {moves : List Move} (ran : state.run? moves = some next)
    (orderly : state.Orderly) : next.Orderly := by
  induction moves generalizing state with
  | nil =>
    cases ran
    exact orderly
  | cons move rest ih =>
    obtain ⟨moved, head, later⟩ := Option.bind_eq_some_iff.mp ran
    exact ih later (orderly.step (moved_of_step head))

/-! ## Publishes that do not overlap -/

/-- In a run, one publish is over before another one begins. -/
def Apart (moves : List Move) (earlier later : Nat) : Prop :=
  ∃ front back middle, moves = front ++ back ∧ run? {} front = some middle ∧
    middle.shared.IsFinished earlier ∧ earlier < middle.shared.publications.length ∧
      middle.shared.publications.length ≤ later

theorem Apart.append {moves : List Move} {earlier later : Nat} (apart : Apart moves earlier later)
    (more : List Move) : Apart (moves ++ more) earlier later := by
  obtain ⟨front, back, middle, parts, facts⟩ := apart
  exact ⟨front, back ++ more, middle, by rw [parts, List.append_assoc], facts⟩

/-- A publish that begins once another is over comes behind it in every mailbox. -/
theorem Apart.not_sublist {moves : List Move} {earlier later : Nat}
    (apart : Apart moves earlier later) (ran : run? {} moves = some state) (id : ConnectionId) :
    ¬[later, earlier].Sublist (state.shared.arrivals id) := by
  obtain ⟨front, back, middle, rfl, first, isOver, before, behind⟩ := apart
  rw [run?_append, first] at ran
  exact Interleaved.not_sublist_of_over (orderly_of_run first orderly_empty).reached.consistent
    (reaches_of_run ran .refl) isOver before behind id

end Concurrent

end ChatHub
