import ChatHub.Net.TcpLink
import ChatHub.Proofs.Net.Turns
import ChatHub.Proofs.Wire.RoundTrip
/-!
What the peers of the two listeners are sent while connections say things in parallel. The parcels
of the two differ in form only, but two publishes that overlap may come in one order to one peer and
in the other order to another. Main statements: `Concurrent.transports_agree` and
`Concurrent.transports_disagree_overtaking`.
-/

set_option autoImplicit false

namespace ChatHub

open Wire
open Service (sentTo along play deliveries)

/-! ## Lines -/

/-- A line that holds a message as one object. All of the line belongs to the object except for the
line feed at its end, which is its only one. -/
def HoldsOne (line : List UInt8) (message : Stamped) : Prop :=
  ∃ object, line = Utf8.encode ('\x7b' :: object) ++ [lineFeed] ∧
    lineFeed ∉ Utf8.encode ('\x7b' :: object) ∧
    scanRecord stampedFormat ('\x7b' :: object) = .ok (message, [])

private theorem holdsOne_encode (message : Stamped) :
    HoldsOne (TcpPeer.encode message) message := by
  have scanned := scanRecord_render stampedFormat_lawful message []
  rw [List.append_nil] at scanned
  obtain ⟨object, parts, noFeed⟩ : IsLine (TcpPeer.encode message) := isLine_encodeLine message
  refine ⟨_, rfl, ?_, scanned⟩
  rwa [← List.append_cancel_right parts] at noFeed

/-- A line holds at most one message. -/
theorem HoldsOne.unique {line : List UInt8} {message other : Stamped}
    (holds : HoldsOne line message) (alsoHolds : HoldsOne line other) : message = other := by
  obtain ⟨object, rfl, _, scanned⟩ := holds
  obtain ⟨object', parts, _, scanned'⟩ := alsoHolds
  rw [Utf8.encode_injective (List.append_cancel_right parts), scanned'] at scanned
  cases scanned
  rfl

namespace Concurrent

/-! ## Two peers -/

variable {moves : List Move} {state : Concurrent} {first second : Nat} {one other : ConnectionId}

/-- What was published with a number. -/
def spoken? (state : Concurrent) (number : Nat) : Option Stamped :=
  state.said[number]?.map Occasion.message

/-- What a TCP connection and a WebSocket connection have been sent in a run. Both have been sent
what arrived in their mailboxes, in that order, but for what still waits there, and one object in
each line. Of all publishes that are over, the two have the same ones of each origin in the same
order, and those that did not overlap in the order in which they were made. -/
structure Agree (moves : List Move) (state : Concurrent) (one other : ConnectionId)
    (lines : List (List UInt8)) (messages : List Stamped) (texts : List String) : Prop where
  toOne : sentTo one state.sent = lines.map .line
  toOther : sentTo other state.sent = texts.map .text
  hold : List.Forall₂ HoldsOne lines messages
  arrivedAtOne : (messages ++ state.shared.hub.queued one).map some =
    (state.shared.arrivals one).map state.spoken?
  arrivedAtOther : (texts ++ (state.shared.hub.queued other).map Stamped.text).map some =
    (state.shared.arrivals other).map fun number => (state.spoken? number).map Stamped.text
  spoken : List.Forall₂ IsOf state.shared.publications state.said
  complete : ∀ {number publication}, state.shared.publications[number]? = some publication →
    publication.registry.contains one = true → state.shared.IsFinished number →
      number ∈ state.shared.arrivals one ∧ number ∈ state.shared.arrivals other
  ofOneOrigin : ∀ origin,
    (state.shared.arrivals one).filter (state.shared.isOverFrom origin) =
      (state.shared.arrivals other).filter (state.shared.isOverFrom origin)
  inOrder : ∀ {earlier later}, Apart moves earlier later →
    ¬[later, earlier].Sublist (state.shared.arrivals one) ∧
      ¬[later, earlier].Sublist (state.shared.arrivals other)
  same : OneByOne moves state →
    messages.map Stamped.text ++ (state.shared.hub.queued one).map Stamped.text =
      texts ++ (state.shared.hub.queued other).map Stamped.text

private theorem Orderly.spoken?_eq (orderly : state.Orderly) (number : Nat) :
    state.spoken? number = state.shared.sent? number := by
  rw [spoken?, Interleaved.State.sent?]
  rcases Nat.lt_or_ge number state.shared.publications.length with inside | outside
  · have alsoInside : number < state.said.length := orderly.spoken.length_eq ▸ inside
    rw [List.getElem?_eq_getElem inside, List.getElem?_eq_getElem alsoInside]
    exact congrArg some (orderly.spoken.get inside alsoInside).2.symm
  · have alsoOutside : state.said.length ≤ number := orderly.spoken.length_eq ▸ outside
    rw [List.getElem?_eq_none outside, List.getElem?_eq_none alsoOutside]
    rfl

/-- What was taken out of a mailbox and what waits there is what arrived. -/
theorem Orderly.arrived (orderly : state.Orderly) {socket : Nat} {id : ConnectionId}
    {listener : Listener} (speaks : state.speakerAt? socket = some (id, listener)) :
    (state.shared.taken id ++ state.shared.hub.queued id).map some =
      (state.shared.arrivals id).map state.spoken? := by
  obtain ⟨lost, all, none⟩ := orderly.reached.consistent.contents id
  rw [none (Hub.isAbandoned_eq_false_of_isOpen (orderly.owned speaks)), List.append_nil] at all
  exact all.trans (List.map_congr_left fun number _ => (orderly.spoken?_eq number).symm)

theorem Orderly.alike (orderly : state.Orderly)
    (tcp : state.speakerAt? first = some (one, .tcp))
    (webSocket : state.speakerAt? second = some (other, .webSocket))
    (together : ∀ publication ∈ state.shared.publications,
      publication.registry.contains one = publication.registry.contains other)
    (silent : ∀ occasion ∈ state.said,
      occasion.utterance.origin ≠ one ∧ occasion.utterance.origin ≠ other) :
    Interleaved.Alike state.shared one other where
  keepsOne := Hub.isAbandoned_eq_false_of_isOpen (orderly.owned tcp)
  keepsOther := Hub.isAbandoned_eq_false_of_isOpen (orderly.owned webSocket)
  together := together
  silent publication member := by
    obtain ⟨number, inside, rfl⟩ := List.getElem_of_mem member
    have alsoInside : number < state.said.length := orderly.spoken.length_eq ▸ inside
    have isOf : IsOf state.shared.publications[number] state.said[number] :=
      orderly.spoken.get inside alsoInside
    rw [isOf.1]
    exact silent _ (List.getElem_mem alsoInside)

private theorem map_text {messages waiting : List Stamped} {numbers : List Nat}
    {spoken? : Nat → Option Stamped}
    (arrived : (messages ++ waiting).map some = numbers.map spoken?) :
    (messages.map Stamped.text ++ waiting.map Stamped.text).map some =
      numbers.map fun number => (spoken? number).map Stamped.text := by
  have mapped := congrArg (List.map (Option.map Stamped.text)) arrived
  rw [List.map_map, List.map_map] at mapped
  rw [← List.map_append, List.map_map]
  exact mapped

/-- A TCP connection and a WebSocket connection that say nothing, that are behind their sockets
still, and that every publish finds attached both or neither. -/
private theorem agree_of_run (ran : run? {} moves = some state)
    (tcp : state.speakerAt? first = some (one, .tcp))
    (webSocket : state.speakerAt? second = some (other, .webSocket))
    (together : ∀ publication ∈ state.shared.publications,
      publication.registry.contains one = publication.registry.contains other)
    (silent : ∀ occasion ∈ state.said,
      occasion.utterance.origin ≠ one ∧ occasion.utterance.origin ≠ other) :
    ∃ lines messages texts, Agree moves state one other lines messages texts := by
  have orderly := orderly_of_run ran orderly_empty
  have consistent := orderly.reached.consistent
  have alike := orderly.alike tcp webSocket together silent
  have atOne := orderly.arrived tcp
  have atOther := map_text (orderly.arrived webSocket)
  refine ⟨(state.shared.taken one).map TcpPeer.encode, state.shared.taken one,
    (state.shared.taken other).map Stamped.text, ?_, ?_, ?_, atOne, atOther, orderly.spoken, ?_,
    alike.filter_arrivals_eq consistent, ?_, ?_⟩
  · rw [List.map_map]
    exact orderly.streams tcp
  · rw [List.map_map]
    exact orderly.streams webSocket
  · exact List.forall₂_map_left_iff.mpr
      (List.forall₂_same.mpr fun message _ => holdsOne_encode message)
  · intro number publication recorded registered isOver
    have foreign := alike.silent publication (List.mem_of_getElem? recorded)
    have here := (consistent.mem_arrivals_iff alike.keepsOne isOver).mpr
      ⟨publication, recorded, foreign.1, registered⟩
    exact ⟨here, (alike.mem_arrivals_iff consistent isOver).mp here⟩
  · intro earlier later apart
    exact ⟨apart.not_sublist ran one, apart.not_sublist ran other⟩
  · intro oneByOne
    have sameNumbers := alike.arrivals_eq_of_inOrder consistent oneByOne.idle
      fun id earlier later before inside =>
        (oneByOne.apart earlier later before inside).not_sublist ran id
    have texts := map_text atOne
    rw [sameNumbers, ← atOther] at texts
    exact List.map_injective_iff.mpr (Option.some_injective _) texts

/-- In every run of the tasks, a TCP connection and a WebSocket connection that say nothing, that
are behind their sockets still, and that every publish finds attached both or neither, agree on what
they are sent, up to the order of publishes that overlap. A service that takes one arrival after
the other makes no others: what it does is a run in which no two publishes overlap. -/
theorem transports_agree :
    (∀ (moves : List Move) (state : Concurrent) (first second : Nat) (one other : ConnectionId),
      run? {} moves = some state →
      state.speakerAt? first = some (one, .tcp) →
      state.speakerAt? second = some (other, .webSocket) →
      (∀ publication ∈ state.shared.publications,
        publication.registry.contains one = publication.registry.contains other) →
      (∀ occasion ∈ state.said,
        occasion.utterance.origin ≠ one ∧ occasion.utterance.origin ≠ other) →
      ∃ lines messages texts, Agree moves state one other lines messages texts) ∧
    ∀ turns, ∃ moves state, Replays (play {} turns) (along deliveries {} turns)
      (along Service.occasions {} turns) moves state :=
  ⟨fun _ _ _ _ _ _ ran tcp webSocket together silent =>
    agree_of_run ran tcp webSocket together silent, exists_run_of_play⟩

/-! ## Runs -/

def upgrade : List UInt8 :=
  Utf8.encode ("GET /ws/chat HTTP/1.1\r\nConnection: upgrade\r\n" ++
    "Upgrade: websocket\r\nSec-WebSocket-Version: 13\r\nSec-WebSocket-Key: k\r\n\r\n").toList

def frames (written : List SocketFrame) : List UInt8 :=
  written.flatMap (SocketFrame.encodeMasked [1, 2, 3, 4])

/-- Two connections of each kind come; the sockets have the numbers of the connections. -/
def coming : List Move :=
  [.arrive 1 (.accepted .tcp), .call 1 "", .arrive 2 (.accepted .webSocket),
    .arrive 2 (.bytes upgrade), .call 2 "", .arrive 3 (.accepted .tcp), .call 3 "",
    .arrive 4 (.accepted .webSocket), .arrive 4 (.bytes upgrade), .call 4 ""]

/-- Two publishes under way together, whose deliveries to connection 1 cross and whose deliveries to
connection 2 do not. -/
def overtaking : List Move :=
  coming ++
    [.arrive 3 (.bytes (TcpLink.encode ⟨"a", "first"⟩)),
      .arrive 4 (.bytes (frames [.ofText "second"])),
      .call 3 "09:00:01Z", .call 4 "09:00:02Z", .deliver 4 (1, 1), .deliver 3 (1, 1),
      .deliver 3 (2, 2), .deliver 4 (2, 2), .deliver 3 (4, 4), .deliver 4 (3, 3),
      .finish 3, .finish 4, .forward 1, .forward 1, .forward 2, .forward 2]

private theorem exists_of_any {property : Concurrent → Prop} [DecidablePred property]
    (checked : (run? {} moves).any (fun state => property state) = true) :
    ∃ state, run? {} moves = some state ∧ property state := by
  obtain ⟨state, ran, holds⟩ := (Option.any_eq_true ..).mp checked
  exact ⟨state, ran, of_decide_eq_true holds⟩

/-- Where two publishes overlap, the texts in the lines that one connection was sent need not be
those that the other was sent, though nothing is under way and nothing waits. -/
theorem transports_disagree_overtaking :
    ∃ state, run? {} overtaking = some state ∧
      state.speakerAt? 1 = some (1, .tcp) ∧ state.speakerAt? 2 = some (2, .webSocket) ∧
      (∀ publication ∈ state.shared.publications,
        publication.registry.contains 1 = true ∧ publication.registry.contains 2 = true) ∧
      (∀ occasion ∈ state.said,
        occasion.utterance.origin ≠ 1 ∧ occasion.utterance.origin ≠ 2) ∧
      state.shared.flights.entries = [] ∧ state.shared.hub.queued 1 = [] ∧
      state.shared.hub.queued 2 = [] ∧
      ∀ lines messages texts, sentTo 1 state.sent = lines.map .line →
        sentTo 2 state.sent = texts.map .text → List.Forall₂ HoldsOne lines messages →
          messages.map Stamped.text ≠ texts := by
  have checked : (run? {} overtaking).any (fun state =>
      state.speakerAt? 1 = some (1, .tcp) ∧ state.speakerAt? 2 = some (2, .webSocket) ∧
      (∀ publication ∈ state.shared.publications,
        publication.registry.contains 1 = true ∧ publication.registry.contains 2 = true) ∧
      (∀ occasion ∈ state.said,
        occasion.utterance.origin ≠ 1 ∧ occasion.utterance.origin ≠ 2) ∧
      state.shared.flights.entries.isEmpty ∧ state.shared.hub.queued 1 = [] ∧
      state.shared.hub.queued 2 = [] ∧
      sentTo 1 state.sent = [.line (TcpPeer.encode ⟨"ws-4", "second", "09:00:02Z"⟩),
        .line (TcpPeer.encode ⟨"a", "first", "09:00:01Z"⟩)] ∧
      sentTo 2 state.sent = [.text "first", .text "second"]) = true := by
    decide +kernel
  obtain ⟨state, ran, tcp, webSocket, seen, silent, idle, noneAtOne, noneAtOther, toOne, toOther⟩ :=
    exists_of_any checked
  refine ⟨state, ran, tcp, webSocket, seen, silent, List.isEmpty_iff.mp idle, noneAtOne,
    noneAtOther, fun lines messages texts isOne isOther hold same => ?_⟩
  rw [toOne] at isOne
  rw [toOther] at isOther
  obtain ⟨line, rest, rfl, isFirst, _⟩ := List.map_eq_cons_iff.mp isOne.symm
  obtain ⟨text, others, rfl, isText, _⟩ := List.map_eq_cons_iff.mp isOther.symm
  cases isFirst
  cases isText
  cases hold with
  | cons holds _ =>
    rw [List.map_cons, holds.unique (holdsOne_encode _)] at same
    exact absurd (List.cons.inj same).1 (by decide)

/-- Connection 3 sends a line whose message has a line feed and quotes in it. -/
def talk : List Move :=
  coming ++
    [.arrive 3 (.bytes (TcpLink.encode ⟨"a", "say \"hi\"\nand go"⟩)), .call 3 "09:00:04Z",
      .deliver 3 (2, 2), .deliver 3 (4, 4), .deliver 3 (1, 1), .forward 1, .finish 3]

/-- Connection 4 sends a ping, a frame of bytes and a text. -/
def answer : List Move :=
  [.arrive 4 (.bytes (frames [⟨true, 9, [7]⟩, ⟨true, 2, [10, 34]⟩, .ofText "hé\n"])),
    .call 4 "09:00:05Z", .deliver 4 (1, 1), .deliver 4 (3, 3), .forward 2, .deliver 4 (2, 2),
    .finish 4, .forward 2, .forward 1]

private theorem idle_of_isEmpty (isEmpty : state.shared.flights.entries.isEmpty = true)
    (origin : ConnectionId) : state.shared.flights.get? origin = none := by
  rw [Roster.get?, List.isEmpty_iff.mp isEmpty]
  rfl

theorem transports_agree_talk :
    ∃ state lines, run? {} (talk ++ answer) = some state ∧ sentTo 1 state.sent = lines.map .line ∧
      sentTo 2 state.sent = ["say \"hi\"\nand go", "hé\n"].map .text ∧
      List.Forall₂ HoldsOne lines
        [⟨"a", "say \"hi\"\nand go", "09:00:04Z"⟩, ⟨"ws-4", "hé\n", "09:00:05Z"⟩] := by
  have talked : (run? {} talk).any (fun state =>
      state.shared.flights.entries.isEmpty ∧ state.shared.publications.length = 1) = true := by
    decide +kernel
  have checked : (run? {} (talk ++ answer)).any (fun state =>
      state.speakerAt? 1 = some (1, .tcp) ∧ state.speakerAt? 2 = some (2, .webSocket) ∧
      (∀ publication ∈ state.shared.publications,
        publication.registry.contains 1 = publication.registry.contains 2) ∧
      (∀ occasion ∈ state.said,
        occasion.utterance.origin ≠ 1 ∧ occasion.utterance.origin ≠ 2) ∧
      state.shared.flights.entries.isEmpty ∧ state.shared.publications.length = 2 ∧
      state.shared.hub.queued 1 = [] ∧ state.shared.hub.queued 2 = [] ∧
      (state.shared.arrivals 1).map state.spoken? =
        [some ⟨"a", "say \"hi\"\nand go", "09:00:04Z"⟩,
          some ⟨"ws-4", "hé\n", "09:00:05Z"⟩]) = true := by
    decide +kernel
  obtain ⟨middle, first, idle, single⟩ := exists_of_any talked
  obtain ⟨state, ran, tcp, webSocket, together, silent, alsoIdle, double, noneAtOne, noneAtOther,
    all⟩ := exists_of_any checked
  obtain ⟨lines, messages, texts, agree⟩ :=
    transports_agree.1 (talk ++ answer) state 1 2 1 2 ran tcp webSocket together silent
  have second : middle.run? answer = some state := by
    rw [run?_append, first] at ran
    exact ran
  have talking : OneByOne talk middle :=
    oneByOne_nil.append first (idle_of_isEmpty idle) (Nat.le_of_eq single)
  have answering := talking.append second (idle_of_isEmpty alsoIdle) (by omega)
  have heard := agree.arrivedAtOne
  rw [noneAtOne, List.append_nil, all] at heard
  have isAll : messages =
      [⟨"a", "say \"hi\"\nand go", "09:00:04Z"⟩, ⟨"ws-4", "hé\n", "09:00:05Z"⟩] :=
    List.map_injective_iff.mpr (Option.some_injective _) heard
  have same := agree.same answering
  rw [noneAtOne, noneAtOther, isAll, List.map_nil, List.append_nil, List.append_nil] at same
  refine ⟨state, lines, ran, agree.toOne, ?_, isAll ▸ agree.hold⟩
  rw [agree.toOther, ← same]
  rfl

end Concurrent

end ChatHub
