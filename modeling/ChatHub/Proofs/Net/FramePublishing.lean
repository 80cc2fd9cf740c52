import ChatHub.Net.Session
import ChatHub.Proofs.Hub.Ledger
import ChatHub.Proofs.Net.Frames
import ChatHub.Proofs.Net.Steady
import Mathlib.Data.List.Induction
/-!
What a WebSocket connection does to its hub, read off the frames that arrive at its socket.
Whatever happens at other sockets in between, it publishes the texts in front of the end of its
stream, under a name that no other connection has, and then it leaves, once. Main statements:
`Service.publishes_frames` and `Service.upgraded_of_occasion`, by which there are no other
connections that publish frames.
-/

set_option autoImplicit false

namespace ChatHub

open Hub

/-! ## Names -/

namespace SocketPeer

private theorem sender_injective {one other : ConnectionId} (same : sender one = sender other) :
    one = other := by
  have digits : Nat.toDigits 10 one = Nat.toDigits 10 other := by
    have texts := congrArg String.toList same
    simpa only [sender, String.toList_append, List.append_cancel_left_eq,
      Nat.toString_eq_ofList_toDigits, String.toList_ofList] using texts
  rw [← @Nat.ofDigitChars_ten_toDigits one, digits, Nat.ofDigitChars_ten_toDigits]

end SocketPeer

/-- Something that was said, and when. -/
structure Occasion where
  utterance : Utterance
  timestamp : String

def Occasion.message (occasion : Occasion) : Stamped :=
  occasion.utterance.inbound.stamp occasion.timestamp

/-! ## Events of a stream -/

namespace SocketEvent

open FrameReader

private theorem texts_append (earlier later : List SocketEvent) :
    texts (earlier ++ later) =
      texts earlier ++ if earlier.any isLast then [] else texts later := by
  induction earlier with
  | nil => rfl
  | cons event rest ih =>
    rw [List.cons_append, List.any_cons]
    cases ends : isLast event with
    | true =>
      rw [texts_of_isLast ends, texts_of_isLast ends, Bool.true_or, if_pos rfl]
      rfl
    | false =>
      rw [texts_of_not_isLast ends, texts_of_not_isLast ends, ih, Bool.false_or,
        List.append_assoc]

private theorem upToLast_spec (events : List SocketEvent) :
    texts (upToLast events) = texts events ∧
      (upToLast events).any isLast = events.any isLast := by
  induction events with
  | nil => exact ⟨rfl, rfl⟩
  | cons event rest ih =>
    rw [upToLast, List.any_cons, List.any_cons]
    cases ends : isLast event with
    | true =>
      rw [texts_of_isLast ends, texts_of_isLast ends]
      exact ⟨rfl, rfl⟩
    | false =>
      rw [texts_of_not_isLast ends, texts_of_not_isLast ends]
      exact ⟨congrArg (_ ++ ·) ih.1, ih.2⟩

/-- What a connection does whose stream gives some events: it says their texts, and leaves when the
stream is over. -/
def toPeerActs (id : ConnectionId) (events : List SocketEvent) : List PeerAct :=
  (texts events).map (fun text => .said ⟨SocketPeer.sender id, text⟩) ++
    if events.any isLast then [.left, .abandoned] else []

private theorem toPeerActs_append (id : ConnectionId) (earlier later : List SocketEvent) :
    toPeerActs id (earlier ++ later) =
      toPeerActs id earlier ++ if earlier.any isLast then [] else toPeerActs id later := by
  rw [toPeerActs, texts_append, List.any_append, toPeerActs]
  cases earlier.any isLast with
  | true => simp
  | false => simp [toPeerActs]

theorem peerActs_publishing (id : ConnectionId) (timestamp : String) (events : List SocketEvent) :
    Hub.peerActs id (publishing id timestamp
        ((texts events).map fun text => ⟨SocketPeer.sender id, text⟩) (events.any isLast)) =
      toPeerActs id events := by
  rw [ChatHub.peerActs_publishing, List.map_map, toPeerActs]
  rfl

private theorem attaches_toPeerActs (id : ConnectionId) (events : List SocketEvent) :
    (toPeerActs id events).foldl PeerAct.attaches true = !events.any isLast := by
  have saying (texts : List String) :
      (texts.map fun text => PeerAct.said ⟨SocketPeer.sender id, text⟩).foldl
        PeerAct.attaches true = true := by
    induction texts with
    | nil => rfl
    | cons text rest ih => exact ih
  rw [toPeerActs, List.foldl_append, saying]
  cases events.any isLast <;> rfl

end SocketEvent

/-! ## Arrivals at the socket of a WebSocket connection -/

namespace Arrival

/-- What has been read of a stream: the bytes behind the request, and what has arrived since. -/
def stream (behind : List UInt8) (arrivals : List Arrival) : FrameReader × List SocketEvent :=
  FrameReader.receive {} (behind ++ sent arrivals)

/-- The events of a stream. Where the far side is done without a close frame, the stream has
failed. -/
def frames (behind : List UInt8) (arrivals : List Arrival) : List SocketEvent :=
  (stream behind arrivals).2 ++ if (ending? arrivals).isSome then [.failed] else []

/-- What an arrival adds to the events, given what was read before. -/
def addsFrames (reader : FrameReader) : Arrival → List SocketEvent
  | .bytes chunk => (reader.receive chunk).2
  | .ended | .broken => [.failed]
  | .accepted _ => []

/-- What is kept of the bytes of a stream behind an arrival. -/
def advance (reader : FrameReader) : Arrival → FrameReader
  | .bytes chunk => (reader.receive chunk).1
  | .ended | .broken | .accepted _ => reader

variable {behind : List UInt8} {arrivals : List Arrival}

private theorem frames_nil (behind : List UInt8) :
    frames behind [] = (FrameReader.receive {} behind).2 ∧
      stream behind [] = FrameReader.receive {} behind := by
  have start : stream behind [] = FrameReader.receive {} behind := by
    rw [stream, sent, List.append_nil]
  exact ⟨by rw [frames, start]; exact List.append_nil _, start⟩

private theorem isOver_stream (behind : List UInt8) (arrivals : List Arrival) :
    (stream behind arrivals).1.isOver = (stream behind arrivals).2.any FrameReader.isLast :=
  FrameReader.isOver_receive rfl _

private theorem open_of_going (going : (frames behind arrivals).any FrameReader.isLast = false) :
    ending? arrivals = none ∧ (stream behind arrivals).1.isOver = false := by
  rw [frames, List.any_append, Bool.or_eq_false_iff] at going
  rw [isOver_stream]
  refine ⟨?_, going.1⟩
  cases ending : ending? arrivals with
  | none => rfl
  | some last =>
    rw [ending] at going
    cases going.2

/-- Before the end of a stream, an arrival adds what its bytes hold. -/
theorem frames_snoc (going : (frames behind arrivals).any FrameReader.isLast = false)
    (arrival : Arrival) :
    frames behind (arrivals ++ [arrival]) =
        frames behind arrivals ++ addsFrames (stream behind arrivals).1 arrival ∧
      (stream behind (arrivals ++ [arrival])).1 = advance (stream behind arrivals).1 arrival := by
  obtain ⟨notEnded, notOver⟩ := open_of_going going
  have sentNow := sent_snoc notEnded arrival
  have ending := ending?_snoc arrivals arrival
  rw [notEnded, Option.none_or] at ending
  have silent (nothing : sent [arrival] = []) :
      stream behind (arrivals ++ [arrival]) = stream behind arrivals := by
    rw [stream, sentNow, nothing, List.append_nil, stream]
  cases arrival with
  | bytes chunk =>
    have more : stream behind (arrivals ++ [.bytes chunk]) =
        (((stream behind arrivals).1.receive chunk).1,
          (stream behind arrivals).2 ++ ((stream behind arrivals).1.receive chunk).2) := by
      have law := (FrameReader.receive_append {} (behind ++ sent arrivals) chunk).2 notOver
      rw [stream, sentNow, sent, sent, List.append_nil, ← List.append_assoc]
      exact law
    rw [frames, more, ending, frames, notEnded]
    exact ⟨by simp [isLast, addsFrames], rfl⟩
  | ended | broken =>
    rw [frames, silent rfl, ending, frames, notEnded]
    exact ⟨by simp [isLast, addsFrames], rfl⟩
  | accepted listener =>
    rw [frames, silent rfl, ending, frames, notEnded]
    exact ⟨by simp [isLast, addsFrames], rfl⟩

/-- Behind the end of a stream an arrival adds nothing that counts. -/
theorem frames_snoc_of_over (finished : (frames behind arrivals).any FrameReader.isLast = true)
    (arrival : Arrival) :
    ∃ more, frames behind (arrivals ++ [arrival]) = frames behind arrivals ++ more := by
  have ending := ending?_snoc arrivals arrival
  cases ended : ending? arrivals with
  | some last =>
    have same : sent (arrivals ++ [arrival]) = sent arrivals :=
      sent_snoc_of_ended (by rw [ended]; rfl) arrival
    refine ⟨[], ?_⟩
    rw [frames, stream, same, ending, ended, Option.some_or, List.append_nil, frames, stream, ended]
  | none =>
    have isOver : (stream behind arrivals).1.isOver = true := by
      rw [isOver_stream, ← finished, frames, ended, Option.isSome_none, if_neg Bool.false_ne_true,
        List.append_nil]
    have same : (stream behind (arrivals ++ [arrival])).2 = (stream behind arrivals).2 := by
      rw [stream, sent_snoc ended, ← List.append_assoc]
      exact (FrameReader.receive_append {} (behind ++ sent arrivals) (sent [arrival])).1 isOver
    rw [frames, same, frames, ended, Option.isSome_none, if_neg Bool.false_ne_true,
      List.append_nil]
    exact ⟨_, rfl⟩

/-- The events that count are those that a client has written. -/
theorem frames_of_carries {written : List SocketEvent}
    (carries : FrameReader.Carries (behind ++ sent arrivals) written) :
    SocketEvent.texts (frames behind arrivals) = SocketEvent.texts written ∧
      (frames behind arrivals).any FrameReader.isLast =
        (written.any FrameReader.isLast || (ending? arrivals).isSome) := by
  obtain ⟨texts, finished⟩ := SocketEvent.upToLast_spec written
  have read : (stream behind arrivals).2 = FrameReader.upToLast written :=
    FrameReader.receive_carries carries
  have noText : SocketEvent.texts (if (ending? arrivals).isSome then [.failed] else []) = [] := by
    split <;> rfl
  rw [frames, read, SocketEvent.texts_append, List.any_append, texts, finished, noText, ite_self,
    List.append_nil]
  refine ⟨rfl, congrArg (_ || ·) ?_⟩
  cases (ending? arrivals).isSome <;> rfl

end Arrival

/-! ## A service and one of its WebSocket connections -/

namespace Service

/-- What a turn is for one socket. -/
def Turn.arrivalAt? (socket : Nat) : Turn → Option Arrival
  | .arrive _ other arrival => if other = socket then some arrival else none
  | .forward _ => none

/-- What arrives at one socket in the course of turns. -/
def arrivedAt (socket : Nat) (turns : List Turn) : List Arrival :=
  turns.filterMap (Turn.arrivalAt? socket)

/-- The bytes complete a request that is accepted, and others may stand behind it. -/
def Upgrades (service : Service) (socket : Nat) (chunk behind : List UInt8) : Prop :=
  ∃ held head, service.sockets.get? socket = some (.request held) ∧
    Served.splitHead? (held ++ chunk) = some (head, behind) ∧
    (Handshake.answer (head.map fun byte => Char.ofNat byte.toNat)).isAccepted = true

variable {service : Service} {socket : Nat} {id : ConnectionId}

theorem peerAct?_forward (service : Service) (socket : Nat) :
    ∀ event ∈ service.turnEvents (.forward socket), event.peerAct? = none := by
  intro event member
  rcases service.forward_cases socket with ⟨_, _, _, _, _, _, _, events, _⟩ | ⟨_, events, _⟩
  · rw [events, List.mem_singleton] at member
    rw [member]
    rfl
  · rw [events] at member
    cases member

theorem take_webSocket (timestamp : String) {reader : FrameReader}
    (found : service.sockets.get? socket = some (.webSocket { connection := id } reader))
    (arrival : Arrival) :
    let events := Arrival.addsFrames reader arrival
    service.takeEvents timestamp socket arrival =
        publishing id timestamp
          ((SocketEvent.texts events).map fun text => ⟨SocketPeer.sender id, text⟩)
          (events.any FrameReader.isLast) ∧
      (service.take timestamp socket arrival).2.sockets.get? socket =
        if events.any FrameReader.isLast then none
        else some (.webSocket { connection := id } (Arrival.advance reader arrival)) := by
  cases arrival with
  | accepted listener =>
    simp only [takeEvents, take, found]
    exact ⟨rfl, rfl⟩
  | bytes chunk =>
    obtain ⟨events, left⟩ := takeFrames_spec timestamp
      (show ({ connection := id } : SocketPeer).isOpen = true from rfl) reader chunk service.hub
    simp only [takeEvents, take, found, Served.receiveEvents, Served.receive]
    refine ⟨events, ?_⟩
    rw [get?_settle, if_pos rfl]
    exact left
  | ended | broken =>
    obtain ⟨taken, events⟩ := SocketPeer.take_last timestamp { connection := id } rfl service.hub
      (show FrameReader.isLast .failed = true from rfl)
    simp only [takeEvents, take, found, Served.finishEvents, Served.finish,
      Served.tearDownEvents, Served.tearDown]
    refine ⟨events, ?_⟩
    rw [get?_settle, if_pos rfl, taken]
    rfl

/-- A service, seen from one WebSocket connection and what has arrived at its socket since it came.
When its stream is over, the connection is behind no socket any more. -/
structure Upgraded (service : Service) (socket : Nat) (id : ConnectionId) (behind : List UInt8)
    (arrivals : List Arrival) : Prop where
  steady : service.Steady
  given : id < service.hub.nextId
  goesOn : (Arrival.frames behind arrivals).any FrameReader.isLast = false →
    service.sockets.get? socket =
      some (.webSocket { connection := id } (Arrival.stream behind arrivals).1)
  gone : (Arrival.frames behind arrivals).any FrameReader.isLast = true →
    ∀ other, service.connectionAt? other ≠ some id

namespace Upgraded

variable {behind : List UInt8} {arrivals : List Arrival}

theorem connectionAt?_ne (upgraded : service.Upgraded socket id behind arrivals) {other : Nat}
    (elsewhere : other ≠ socket ∨
      (Arrival.frames behind arrivals).any FrameReader.isLast = true) :
    service.connectionAt? other ≠ some id := by
  cases finished : (Arrival.frames behind arrivals).any FrameReader.isLast with
  | true => exact upgraded.gone finished other
  | false =>
    rw [finished] at elsewhere
    intro known
    rw [connectionAt?_eq] at known
    obtain ⟨⟨its, listener⟩, there, same⟩ := Option.map_eq_some_iff.mp known
    obtain rfl : its = id := same
    have here : service.speakerAt? socket = some (its, .webSocket) := by
      rw [speakerAt?, upgraded.goesOn finished]
      rfl
    rcases elsewhere with different | isOver
    · exact different (upgraded.steady.unique there here)
    · cases isOver

theorem take_aside (upgraded : service.Upgraded socket id behind arrivals) {other : Nat}
    (absent : service.connectionAt? other ≠ some id) (timestamp : String) (arrival : Arrival) :
    peerActs id (service.takeEvents timestamp other arrival) = [] ∧
      (service.take timestamp other arrival).2.connectionAt? other ≠ some id := by
  have taken := service.take_spec timestamp other arrival
  have notBehind (events : List Hub.Event) :
      ¬ Served.IsBehind (service.connectionAt? other) service.hub events id := by
    rintro (known | ⟨new, _⟩)
    · exact absent known
    · exact absurd upgraded.given (new ▸ Nat.lt_irrefl _)
  constructor
  · apply peerActs_eq_nil
    intro event member same
    exact absurd (same ▸ taken.subject event member) (notBehind _)
  · exact fun known => notBehind _ (taken.connection id known)

private theorem given_turn (upgraded : service.Upgraded socket id behind arrivals) (turn : Turn) :
    id < (service.turn turn).hub.nextId :=
  Nat.lt_of_lt_of_le upgraded.given
    ((service.turn_run turn).nextId_le upgraded.steady.sound.hub)

/-- A turn that is nothing for the socket changes nothing there, and is no act of the
connection. -/
theorem turn_aside (upgraded : service.Upgraded socket id behind arrivals) {turn : Turn}
    (aside : turn.arrivalAt? socket = none) :
    (service.turn turn).Upgraded socket id behind arrivals ∧
      peerActs id (service.turnEvents turn) = [] := by
  have given := upgraded.given_turn turn
  have steady := upgraded.steady.turn turn
  cases turn with
  | forward other =>
    refine ⟨?_, Hub.peerActs_eq_nil fun event member _ =>
      service.peerAct?_forward other event member⟩
    rcases service.forward_cases other with ⟨_, _, _, hub, _, _, next, _⟩ | ⟨next, _⟩
    · rw [next] at given steady ⊢
      exact ⟨steady, given, upgraded.goesOn, upgraded.gone⟩
    · rw [next]
      exact upgraded
  | arrive timestamp other arrival =>
    have taken := service.take_spec timestamp other arrival
    have different : other ≠ socket := by
      rintro rfl
      rw [Turn.arrivalAt?, if_pos rfl] at aside
      cases aside
    obtain ⟨noActs, absent⟩ :=
      upgraded.take_aside (upgraded.connectionAt?_ne (.inl different)) timestamp arrival
    refine ⟨⟨steady, given, ?_, ?_⟩, noActs⟩
    · intro going
      exact (taken.others socket different.symm).trans (upgraded.goesOn going)
    · intro finished another
      by_cases same : another = other
      · exact same ▸ absent
      · rw [turn, taken.connection_of_ne same]
        exact upgraded.gone finished another

/-- An arrival at the socket does what the events say that it adds. -/
theorem turn_arrival (upgraded : service.Upgraded socket id behind arrivals) (timestamp : String)
    (arrival : Arrival) :
    (service.turn (.arrive timestamp socket arrival)).Upgraded socket id behind
        (arrivals ++ [arrival]) ∧
      SocketEvent.toPeerActs id (Arrival.frames behind (arrivals ++ [arrival])) =
        SocketEvent.toPeerActs id (Arrival.frames behind arrivals) ++
          peerActs id (service.takeEvents timestamp socket arrival) := by
  have taken := service.take_spec timestamp socket arrival
  have given := upgraded.given_turn (.arrive timestamp socket arrival)
  have steady := upgraded.steady.take timestamp socket arrival
  have apart (other : Nat) (different : other ≠ socket) :
      (service.take timestamp socket arrival).2.connectionAt? other ≠ some id := by
    rw [taken.connection_of_ne different]
    exact upgraded.connectionAt?_ne (.inl different)
  cases finished : (Arrival.frames behind arrivals).any FrameReader.isLast with
  | true =>
    obtain ⟨more, frames⟩ := Arrival.frames_snoc_of_over finished arrival
    have away : service.connectionAt? socket ≠ some id :=
      upgraded.connectionAt?_ne (.inr finished)
    obtain ⟨noActs, absent⟩ := upgraded.take_aside away timestamp arrival
    have still : (Arrival.frames behind (arrivals ++ [arrival])).any FrameReader.isLast = true := by
      rw [frames, List.any_append, finished, Bool.true_or]
    refine ⟨⟨steady, given, fun going => ?_, fun _ other => ?_⟩, ?_⟩
    · cases going.symm.trans still
    · by_cases same : other = socket
      · exact same ▸ absent
      · exact apart other same
    · rw [frames, SocketEvent.toPeerActs_append, finished, noActs]
      rfl
  | false =>
    obtain ⟨frames, kept⟩ := Arrival.frames_snoc finished arrival
    obtain ⟨events, left⟩ := take_webSocket timestamp (upgraded.goesOn finished) arrival
    have ends : (Arrival.frames behind (arrivals ++ [arrival])).any FrameReader.isLast =
        (Arrival.addsFrames (Arrival.stream behind arrivals).1 arrival).any FrameReader.isLast := by
      rw [frames, List.any_append, finished, Bool.false_or]
    rw [← ends] at left
    refine ⟨⟨steady, given, fun going => ?_, fun isOver other => ?_⟩, ?_⟩
    · rw [going] at left
      rw [kept]
      exact left
    · rw [isOver] at left
      by_cases same : other = socket
      · subst same
        rw [turn, connectionAt?, left]
        intro known
        cases known
      · exact apart other same
    · rw [frames, SocketEvent.toPeerActs_append, finished, events, SocketEvent.peerActs_publishing]
      rfl

/-- Whatever happens, a connection does what the frames at its socket say. -/
theorem play (upgraded : service.Upgraded socket id behind arrivals) (turns : List Turn) :
    (service.play turns).Upgraded socket id behind (arrivals ++ arrivedAt socket turns) ∧
      SocketEvent.toPeerActs id (Arrival.frames behind (arrivals ++ arrivedAt socket turns)) =
        SocketEvent.toPeerActs id (Arrival.frames behind arrivals) ++
          peerActs id (along turnEvents service turns) := by
  induction turns generalizing service arrivals with
  | nil =>
    rw [arrivedAt, List.filterMap_nil, List.append_nil]
    exact ⟨upgraded, (List.append_nil _).symm⟩
  | cons turn rest ih =>
    cases at_ : turn.arrivalAt? socket with
    | none =>
      obtain ⟨next, noActs⟩ := upgraded.turn_aside at_
      have split : arrivedAt socket (turn :: rest) = arrivedAt socket rest :=
        List.filterMap_cons_none at_
      rw [split, along, Hub.peerActs_append, noActs]
      exact ih next
    | some arrival =>
      obtain ⟨timestamp, rfl⟩ : ∃ timestamp, turn = .arrive timestamp socket arrival := by
        cases turn with
        | forward other => cases at_
        | arrive timestamp other found =>
          rw [Turn.arrivalAt?] at at_
          split at at_
          · rename_i same
            cases at_
            exact ⟨timestamp, same ▸ rfl⟩
          · cases at_
      obtain ⟨next, now⟩ := upgraded.turn_arrival timestamp arrival
      obtain ⟨last, later⟩ := ih next
      have split : arrivedAt socket (.arrive timestamp socket arrival :: rest) =
          arrival :: arrivedAt socket rest := List.filterMap_cons_some at_
      rw [List.append_assoc, List.singleton_append, ← split] at last later
      refine ⟨last, ?_⟩
      rw [later, now, List.append_assoc, along, Hub.peerActs_append]
      rfl

end Upgraded

/-- A request that is accepted makes a connection, which says what is in the frames behind it. -/
theorem take_upgrade (timestamp : String) {chunk behind : List UInt8}
    (upgrades : service.Upgrades socket chunk behind) :
    let events := (FrameReader.receive {} behind).2
    service.takeEvents timestamp socket (.bytes chunk) =
        .attached service.hub.nextId :: publishing service.hub.nextId timestamp
          ((SocketEvent.texts events).map fun text =>
            ⟨SocketPeer.sender service.hub.nextId, text⟩)
          (events.any FrameReader.isLast) ∧
      (service.take timestamp socket (.bytes chunk)).2.sockets.get? socket =
        if events.any FrameReader.isLast then none
        else some (.webSocket { connection := service.hub.nextId }
          (FrameReader.receive {} behind).1) := by
  obtain ⟨held, head, found, split, accepted⟩ := upgrades
  obtain ⟨said, left⟩ := takeFrames_spec timestamp
    (show (SocketPeer.accept service.hub).1.isOpen = true from rfl) {} behind
    (SocketPeer.accept service.hub).2
  constructor
  · simp only [takeEvents, found, Served.receiveEvents, split, accepted, if_true]
    exact congrArg (_ :: ·) said
  · simp only [Service.take, found, Served.receive, split, accepted, if_true]
    rw [get?_settle, if_pos rfl]
    exact left

theorem Steady.upgrade (steady : service.Steady) (timestamp : String)
    {chunk behind : List UInt8} (upgrades : service.Upgrades socket chunk behind) :
    (service.take timestamp socket (.bytes chunk)).2.Upgraded socket service.hub.nextId behind [] ∧
      peerActs service.hub.nextId (service.takeEvents timestamp socket (.bytes chunk)) =
        .joined :: SocketEvent.toPeerActs service.hub.nextId (Arrival.frames behind []) := by
  have taken := service.take_spec timestamp socket (.bytes chunk)
  obtain ⟨frames, stream⟩ := Arrival.frames_nil behind
  obtain ⟨events, next⟩ := take_upgrade timestamp upgrades
  rw [← frames] at events next
  rw [← stream] at next
  constructor
  · refine ⟨steady.take timestamp socket _, ?_, fun going => ?_, fun finished other => ?_⟩
    · exact taken.run.lt_nextId steady.sound.hub (events ▸ List.mem_cons_self)
    · rw [next, going]
      rfl
    · by_cases same : other = socket
      · subst same
        rw [connectionAt?, next, finished]
        intro known
        cases known
      · rw [taken.connection_of_ne same]
        exact fun known => absurd (steady.sound.bounded known) (Nat.lt_irrefl _)
  · rw [events, peerActs, SocketEvent.peerActs_publishing]
    simp [Event.subject, Event.peerAct?]

theorem Steady.peerActs_eq_nil (steady : service.Steady) (turns : List Turn)
    (late : (service.play turns).hub.nextId ≤ id) :
    peerActs id (along turnEvents service turns) = [] := by
  induction turns generalizing service with
  | nil => rfl
  | cons turn rest ih =>
    rw [along, Hub.peerActs_append, ih (steady.turn turn) late, List.append_nil]
    apply Hub.peerActs_eq_nil
    intro event member same
    cases turn with
    | forward other => exact service.peerAct?_forward other event member
    | arrive timestamp other arrival =>
      -- Whoever acts has a number by then, and numbers are handed out in order.
      have early := (service.take_spec timestamp other arrival).subject_lt steady.sound member
      have next := steady.take timestamp other arrival
      have until_ := (play_run _ rest).nextId_le next.sound.hub
      rw [same] at early
      exact absurd (Nat.lt_of_lt_of_le early (Nat.le_trans until_ late)) (Nat.lt_irrefl _)

theorem peerActs_upgraded {before : List Turn} (timestamp : String) {chunk behind : List UInt8}
    (upgrades : (play {} before).Upgrades socket chunk behind) (rest : List Turn) :
    let id := (play {} before).hub.nextId
    peerActs id (along turnEvents {} (before ++ .arrive timestamp socket (.bytes chunk) :: rest)) =
      .joined :: SocketEvent.toPeerActs id (Arrival.frames behind (arrivedAt socket rest)) := by
  intro id
  obtain ⟨upgraded, joined⟩ := (steady_play before).upgrade timestamp upgrades
  have unknown := steady_empty.peerActs_eq_nil before (Nat.le_refl id)
  have later := (upgraded.play rest).2
  rw [List.nil_append] at later
  calc peerActs id (along turnEvents {} (before ++ .arrive timestamp socket (.bytes chunk) :: rest))
      = peerActs id ((play {} before).takeEvents timestamp socket (.bytes chunk)) ++
          peerActs id (along turnEvents ((play {} before).take timestamp socket (.bytes chunk)).2
            rest) := by
        rw [along_append, along, Hub.peerActs_append, Hub.peerActs_append, unknown]
        rfl
    _ = .joined :: SocketEvent.toPeerActs id (Arrival.frames behind (arrivedAt socket rest)) := by
        rw [joined, List.cons_append, later]

/-! ## What others notice -/

def occasions (service : Service) : Turn → List Occasion
  | .arrive timestamp socket arrival =>
    (service.utterances socket arrival).map fun utterance => ⟨utterance, timestamp⟩
  | .forward _ => []

/-- What an arrival does is done in the name of one connection, who says all that is said. -/
theorem Effect.voice {timestamp : String} {events : List Hub.Event} {said : List Utterance}
    {next : Service} (effect : service.Effect timestamp socket events said next) :
    ∃ its, (∀ event ∈ events, event.subject = its) ∧
      (∀ utterance ∈ said, utterance.origin = its) ∧
      events.filterMap Event.message? = said.map fun utterance =>
        utterance.inbound.stamp timestamp := by
  cases effect with
  | quiet => exact ⟨0, nofun, nofun, rfl⟩
  | speaks _ same _ =>
    refine ⟨_, fun _ => subject_publishing, same, ?_⟩
    rw [messages_publishing, List.map_map]
    rfl
  | joins _ same _ =>
    refine ⟨_, fun event member => ?_, same, ?_⟩
    · rcases List.mem_cons.mp member with rfl | later
      · rfl
      · exact subject_publishing later
    · rw [List.filterMap_cons_none rfl, messages_publishing, List.map_map]
      rfl

/-- What a connection does in a turn is noticed by others for what it says, and for nothing
else. -/
theorem Steady.overheard (steady : service.Steady) {turn : Turn}
    (does : peerActs id (service.turnEvents turn) ≠ []) {other : ConnectionId}
    (different : other ≠ id) :
    Overhears other ((service.occasions turn).map Occasion.message) service.hub
      (service.turn turn).hub := by
  cases turn with
  | forward socket =>
    have none_ : peerActs id (service.turnEvents (.forward socket)) = [] :=
      Hub.peerActs_eq_nil fun event member _ => service.peerAct?_forward socket event member
    exact absurd none_ does
  | arrive timestamp socket arrival =>
    obtain ⟨its, subject, _, messages⟩ := (steady.take_effect timestamp socket arrival).voice
    have own : its = id := by
      by_contra apart
      exact does (Hub.peerActs_eq_nil fun event member same =>
        absurd ((subject event member).symm.trans same) apart)
    have heard : Overhears other _ service.hub _ :=
      (service.turn_run (.arrive timestamp socket arrival)).overhears steady.sound.hub
        fun event member same => different (same.symm.trans ((subject event member).trans own))
    rw [turnEvents, messages] at heard
    rw [occasions, List.map_map]
    exact heard

/-- Whatever is published was said. -/
theorem Steady.said (steady : service.Steady) {turn : Turn} {origin : ConnectionId}
    {message : Stamped} (published : .published origin message ∈ service.turnEvents turn) :
    ∃ occasion ∈ service.occasions turn,
      occasion.utterance.origin = origin ∧ occasion.message = message := by
  cases turn with
  | forward socket => cases service.peerAct?_forward socket _ published
  | arrive timestamp socket arrival =>
    obtain ⟨its, subject, same, messages⟩ := (steady.take_effect timestamp socket arrival).voice
    have given : message ∈ (service.takeEvents timestamp socket arrival).filterMap
        Event.message? := List.mem_filterMap.mpr ⟨_, published, rfl⟩
    rw [messages, List.mem_map] at given
    obtain ⟨utterance, said, stamped⟩ := given
    refine ⟨_, List.mem_map.mpr ⟨utterance, said, rfl⟩, ?_, stamped⟩
    exact (same utterance said).trans (subject _ published).symm

private theorem mem_along {α : Type} {emit : Service → Turn → List α} {turns : List Turn}
    {item : α} :
    item ∈ along emit service turns ↔ ∃ earlier turn later,
      turns = earlier ++ turn :: later ∧ item ∈ emit (service.play earlier) turn := by
  constructor
  · intro member
    induction turns generalizing service with
    | nil => cases member
    | cons turn rest ih =>
      rcases List.mem_append.mp member with now | later
      · exact ⟨[], turn, rest, rfl, now⟩
      · obtain ⟨earlier, other, behind, rfl, given⟩ := ih later
        exact ⟨turn :: earlier, other, behind, rfl, given⟩
  · rintro ⟨earlier, turn, later, rfl, given⟩
    rw [along_append, along]
    exact List.mem_append_right _ (List.mem_append_left _ given)

/-! ## Where WebSocket connections come from -/

/-- A WebSocket connection that was not behind a socket before an arrival has come by a request
that the arrival completed. -/
theorem Steady.upgrades (steady : service.Steady) {timestamp : String} {arrival : Arrival}
    (isNew : service.speakerAt? socket ≠ some (id, .webSocket))
    (speaks : (service.take timestamp socket arrival).2.speakerAt? socket = some (id, .webSocket)) :
    ∃ chunk behind, arrival = .bytes chunk ∧ service.Upgrades socket chunk behind ∧
      service.hub.nextId = id := by
  obtain ⟨unknown, new⟩ := (steady.take_effect timestamp socket arrival).joins_of_new speaks isNew
  rw [speakerAt?] at unknown
  cases found : service.sockets.get? socket with
  | none =>
    cases arrival with
    | accepted listener =>
      simp only [Service.take, found, speakerAt?_settle] at speaks
      cases listener with
      | tcp => cases speaks
      | webSocket => cases speaks
    | bytes chunk | ended | broken =>
      simp only [Service.take, found] at speaks
      exact absurd speaks isNew
  | some served =>
    rw [found] at unknown
    cases served with
    | tcp peer => cases unknown
    | webSocket peer reader => cases unknown
    | request held =>
      cases arrival with
      | accepted listener =>
        simp only [Service.take, found] at speaks
        exact absurd speaks isNew
      | ended | broken =>
        simp only [Service.take, found, speakerAt?_settle] at speaks
        cases speaks
      | bytes chunk =>
        simp only [Service.take, found, Served.receive, speakerAt?_settle] at speaks
        cases split : Served.splitHead? (held ++ chunk) with
        | none =>
          rw [split] at speaks
          cases speaks
        | some halves =>
          obtain ⟨head, behind⟩ := halves
          by_cases accepted :
              (Handshake.answer (head.map fun byte => Char.ofNat byte.toNat)).isAccepted = true
          · exact ⟨chunk, behind, rfl, ⟨held, head, found, split, accepted⟩, new.symm⟩
          · simp only [split, if_neg accepted] at speaks
            cases speaks

/-- A run in which a request is completed and accepted at some moment, whose connection has a
certain id. -/
def HasUpgraded (turns : List Turn) (id : ConnectionId) : Prop :=
  ∃ before timestamp socket chunk behind rest,
    turns = before ++ .arrive timestamp socket (.bytes chunk) :: rest ∧
      (play {} before).Upgrades socket chunk behind ∧ (play {} before).hub.nextId = id

theorem HasUpgraded.append {turns : List Turn} (upgraded : HasUpgraded turns id)
    (more : List Turn) : HasUpgraded (turns ++ more) id := by
  obtain ⟨before, timestamp, socket, chunk, behind, rest, rfl, upgrades⟩ := upgraded
  exact ⟨before, timestamp, socket, chunk, behind, rest ++ more, by simp, upgrades⟩

private theorem upgraded_of_speaker (turns : List Turn)
    (speaks : (play {} turns).speakerAt? socket = some (id, .webSocket)) :
    HasUpgraded turns id := by
  induction turns using List.reverseRecOn generalizing socket with
  | nil => cases speaks
  | append_singleton turns turn ih =>
    rw [play_append] at speaks
    cases turn with
    | forward other =>
      apply HasUpgraded.append
      rcases (play {} turns).forward_cases other with ⟨_, _, _, hub, _, _, next, _⟩ | ⟨next, _⟩
      · rw [play, List.foldl_cons, next] at speaks
        exact ih speaks
      · rw [play, List.foldl_cons, next] at speaks
        exact ih speaks
    | arrive timestamp other arrival =>
      by_cases known : (play {} turns).speakerAt? socket = some (id, .webSocket)
      · exact (ih known).append _
      · have taken := (play {} turns).take_spec timestamp other arrival
        by_cases here : socket = other
        · subst here
          obtain ⟨chunk, behind, rfl, upgrades, same⟩ := (steady_play turns).upgrades known speaks
          exact ⟨turns, timestamp, socket, chunk, behind, [], rfl, upgrades, same⟩
        · exact absurd ((speakerAt?_of_ne taken here).symm.trans speaks) known

theorem upgraded_of_occasion {turns : List Turn} {occasion : Occasion} {text : String}
    (member : occasion ∈ along occasions {} turns) (said : occasion.utterance = .frame id text) :
    HasUpgraded turns id := by
  obtain ⟨earlier, turn, later, rfl, given⟩ := mem_along.mp member
  cases turn with
  | forward socket => cases given
  | arrive timestamp socket arrival =>
    obtain ⟨utterance, uttered, rfl⟩ := List.mem_map.mp given
    obtain rfl : utterance = .frame id text := said
    unfold utterances at uttered
    split at uttered
    · obtain ⟨_, _, line⟩ := List.mem_map.mp uttered
      cases line
    · rename_i peer reader bytes found
      obtain ⟨_, _, frame⟩ := List.mem_map.mp uttered
      cases frame
      apply (upgraded_of_speaker earlier _).append
      · exact socket
      · rw [speakerAt?, found]
        rfl
    · rename_i held bytes found
      split at uttered
      · rename_i head behind split
        split at uttered
        · rename_i accepted
          obtain ⟨_, _, frame⟩ := List.mem_map.mp uttered
          cases frame
          exact ⟨earlier, timestamp, socket, bytes, behind, later, rfl,
            ⟨held, head, found, split, accepted⟩, rfl⟩
        · cases uttered
      · cases uttered
    · cases uttered

/-! ## WebSocket connections -/

/-- A WebSocket connection, whatever happens before its request is accepted and from then on. It
joins, it publishes the texts in front of the end of its stream, each under the same name, and once
the stream is over it leaves: these are all its acts in the run. As bytes come in any chunks, frames
of several connections come in any order. If a client has written its events into the bytes, frame
by frame, then their texts are those. In each turn in which it does something, others notice nothing
of it except for what it says. No other connection is given the same name, and whatever is published
under this name by a frame is its own. -/
theorem publishes_frames (before rest : List Turn) (timestamp : String) (socket : Nat)
    (chunk behind : List UInt8) (upgrades : (play {} before).Upgrades socket chunk behind) :
    let id := (play {} before).hub.nextId
    let turns := before ++ .arrive timestamp socket (.bytes chunk) :: rest
    let arrivals := arrivedAt socket rest
    let frames := Arrival.frames behind arrivals
    let isOver := frames.any FrameReader.isLast
    let events := along turnEvents {} turns
    Hub.Run {} events (play {} turns).hub ∧
      peerActs id events =
        .joined ::
          ((SocketEvent.texts frames).map (fun text => .said ⟨"ws-" ++ toString id, text⟩) ++
            if isOver then [.left, .abandoned] else []) ∧
      (play {} turns).hub.isAttached id = !isOver ∧
      (∀ written, FrameReader.Carries (behind ++ Arrival.sent arrivals) written →
        SocketEvent.texts frames = SocketEvent.texts written ∧
          isOver = (written.any FrameReader.isLast || (Arrival.ending? arrivals).isSome)) ∧
      (∀ earlier turn later, turns = earlier ++ turn :: later →
        peerActs id ((play {} earlier).turnEvents turn) ≠ [] → ∀ other, other ≠ id →
          Overhears other (((play {} earlier).occasions turn).map Occasion.message)
            (play {} earlier).hub ((play {} earlier).turn turn).hub) ∧
      ((issued events).map SocketPeer.sender).Nodup ∧
      (∀ origin message, .published origin message ∈ events →
        ∃ occasion ∈ along occasions {} turns,
          occasion.utterance.origin = origin ∧ occasion.message = message) ∧
      ∀ occasion ∈ along occasions {} turns, ∀ origin text,
        occasion.utterance = .frame origin text →
          HasUpgraded turns origin ∧
            (occasion.message.sender = "ws-" ++ toString id → origin = id) := by
  intro id turns arrivals frames isOver events
  have run := play_run {} turns
  have itsActs : peerActs id events = .joined :: SocketEvent.toPeerActs id frames :=
    peerActs_upgraded timestamp upgrades rest
  refine ⟨run, itsActs, ?attached, ?written, ?overheard, ?names, ?said, ?own⟩
  case attached =>
    rw [run.isAttached Hub.sound_empty]
    exact (congrArg _ itsActs).trans (SocketEvent.attaches_toPeerActs id frames)
  case written => exact fun written carries => Arrival.frames_of_carries carries
  case overheard =>
    intro earlier turn later _ does other different
    exact (steady_play earlier).overheard does different
  case names =>
    rw [run.issued Hub.sound_empty]
    exact List.Nodup.map (fun _ _ => SocketPeer.sender_injective) List.nodup_range'
  case said =>
    intro origin message published
    obtain ⟨earlier, turn, later, parts, given⟩ := mem_along.mp published
    obtain ⟨occasion, member, same⟩ := (steady_play earlier).said given
    exact ⟨occasion, mem_along.mpr ⟨earlier, turn, later, parts, member⟩, same⟩
  case own =>
    intro occasion member origin text frame
    refine ⟨upgraded_of_occasion member frame, fun named => ?_⟩
    apply SocketPeer.sender_injective
    rw [Occasion.message, frame] at named
    exact named

/-- A connection sends a text in two chunks, cut inside a character, and then bytes, a ping, a close
and another text. In between another connection comes and says something. -/
def farewell : List Turn :=
  let key := [1, 2, 3, 4]
  let text := SocketFrame.encodeMasked key (.ofText "hé")
  let others := [⟨true, 2, [10]⟩, ⟨true, 9, [7]⟩, ⟨true, 8, []⟩, .ofText "late"]
  [.arrive "09:00:03Z" 4 (.bytes (Utf8.encode NetSession.upgradeRequest.toList)),
    .arrive "09:00:04Z" 2 (.bytes (text.take 8)),
    .arrive "09:00:05Z" 4 (.bytes (SocketFrame.encodeMasked key (.ofText "hello"))),
    .arrive "09:00:06Z" 2 (.bytes (text.drop 8)),
    .forward 1,
    .arrive "09:00:07Z" 2 (.bytes (others.flatMap (SocketFrame.encodeMasked key))),
    .arrive "09:00:08Z" 2 .ended]

theorem publishes_frames_farewell :
    let before : List Turn :=
      [.arrive "09:00:00Z" 1 (.accepted .tcp), .arrive "09:00:00Z" 2 (.accepted .webSocket),
        .arrive "09:00:01Z" 4 (.accepted .webSocket)]
    let chunk := Utf8.encode NetSession.upgradeRequest.toList
    let turns := before ++ .arrive "09:00:02Z" 2 (.bytes chunk) :: farewell
    peerActs 2 (along turnEvents {} turns) = [.joined, .said ⟨"ws-2", "hé"⟩, .left, .abandoned] ∧
      (play {} turns).hub.isAttached 2 = false := by
  intro before chunk turns
  have upgrades : (play {} before).Upgrades 2 chunk [] :=
    ⟨[], chunk.take (chunk.length - 2), by decide +kernel, by decide +kernel, by decide +kernel⟩
  have frames : SocketEvent.texts (Arrival.frames [] (arrivedAt 2 farewell)) = ["hé"] ∧
      (Arrival.frames [] (arrivedAt 2 farewell)).any FrameReader.isLast = true := by
    decide +kernel
  have isSecond : (play {} before).hub.nextId = 2 := rfl
  obtain ⟨_, itsActs, attached, _⟩ :=
    publishes_frames before farewell "09:00:02Z" 2 chunk [] upgrades
  rw [isSecond, frames.1, frames.2] at itsActs
  rw [isSecond, frames.2] at attached
  exact ⟨itsActs, attached⟩

end Service

end ChatHub
