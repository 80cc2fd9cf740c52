import ChatHub.Proofs.Wire.Partition
import ChatHub.Proofs.Wire.Scanning
/-!
Messages written to a sink with too little room. Those that fit are read back, and of the one that
was torn no other message can be read: cut off anywhere before its closing brace, an object is none.
Main statement: `torn_writes_never_mislead`.
-/

set_option autoImplicit false

namespace ChatHub.Wire

section Torn

variable {α : Type} {format : Format α}

/-! ## Objects cut short -/

/-- The front of a line decodes to nothing, for whatever stands behind a message is left over. -/
theorem decodeLine_front (exact : format.Exact) {message content : α} {front later : List Char}
    (parts : format.render message = front ++ later) (cut : later ≠ []) :
    decodeLine format front ≠ .ok content := by
  intro decoded
  obtain ⟨behind, records, -⟩ := (decodeLine_eq_ok_iff exact).mp decoded
  have scanned := (scanRecord_eq_ok_iff exact).mpr (records.append later)
  have whole := scanRecord_render exact.toLawful message []
  rw [List.append_nil, parts, scanned] at whole
  simp only [Except.ok.injEq, Prod.mk.injEq] at whole
  exact cut (List.append_eq_nil_iff.mp whole.2).2

private theorem trimLine_eq_self {text : List Char}
    (noEnding : ∀ character ∈ text, isLineEnding character = false) : trimLine text = text := by
  have trimmed := @trimLine_append text [] (by simp) fun character last =>
    noEnding character (List.mem_of_getLast? last)
  rwa [List.append_nil] at trimmed

private theorem isLineEnding_of_mem_render {message : α} {character : Char}
    (member : character ∈ format.render message) : isLineEnding character = false := by
  have printable := printable_of_mem_render member
  rw [← Bool.not_eq_true, isLineEnding_iff]
  rintro (rfl | rfl) <;> revert printable <;> decide

/-- The bytes of a message without the line feed. -/
def objectBytes (format : Format α) (message : α) : List UInt8 :=
  Utf8.encode (format.render message)

private theorem lineFeed_not_mem_objectBytes (message : α) :
    lineFeed ∉ objectBytes format message :=
  Utf8.lineFeed_not_mem_encode fun member => by
    have ending := isLineEnding_of_mem_render member
    cases ending

private theorem readPiece_object (lawful : format.Lawful) {message : α}
    (fits : (objectBytes format message).length < maxLineBytes) :
    readPiece format (objectBytes format message) = some (.ok message) := by
  have decoded : Utf8.decode (objectBytes format message) = .ok (format.render message) :=
    Utf8.decode_encode _
  have trimmed : trimLine (format.render message) = format.render message :=
    trimLine_eq_self fun _ => isLineEnding_of_mem_render
  have notEmpty : trimLine (format.render message) ≠ [] := by
    rw [trimmed]
    exact List.cons_ne_nil _ _
  rw [readPiece_text decoded (isCut_of_lt fits) notEmpty, trimmed, decodeLine_render lawful]
  rfl

/-- Some but not all bytes of an object are refused. -/
theorem readPiece_torn (exact : format.Exact) {message : α} {taken missing : List UInt8}
    (parts : objectBytes format message = taken ++ missing) (begun : taken ≠ [])
    (notAll : missing ≠ []) (fits : taken.length < maxLineBytes) :
    ∃ error, readPiece format taken = some (.error error) := by
  cases decoded : Utf8.decode taken with
  | error fault => exact ⟨.notText fault, by simp only [readPiece, decoded]⟩
  | ok text =>
    have spelled := Utf8.decode_eq_ok_iff.mp decoded
    obtain ⟨later, rendered⟩ := Utf8.exists_of_encode_append (spelled ▸ parts.symm)
    have cut : later ≠ [] := by
      rintro rfl
      rw [objectBytes, rendered, List.append_nil, spelled] at parts
      exact notAll (List.self_eq_append_right.mp parts)
    have trimmed : trimLine text = text := trimLine_eq_self fun character member =>
      isLineEnding_of_mem_render (rendered ▸ List.mem_append_left later member)
    have notEmpty : trimLine text ≠ [] := by
      rw [trimmed]
      rintro rfl
      exact begun spelled.symm
    rw [readPiece_text decoded (isCut_of_lt fits) notEmpty, trimmed]
    cases read : decodeLine format text with
    | ok content => exact absurd read (decodeLine_front exact rendered cut)
    | error failure => exact ⟨_, rfl⟩

/-! ## Filling a sink -/

/-- Writes messages in order, one line after the other. -/
def writeMessages (format : Format α) (sink : Sink) :
    List α → List (Except WriteError Unit) × Sink
  | [] => ([], sink)
  | message :: rest =>
    let (result, sink) := sink.writeMessage format message
    let (results, sink) := writeMessages format sink rest
    (result :: results, sink)

def joinedLines (format : Format α) (messages : List α) : List UInt8 :=
  messages.flatMap (encodeLine format)

theorem joinedLines_cons (format : Format α) (message : α) (rest : List α) :
    joinedLines format (message :: rest) = encodeLine format message ++ joinedLines format rest :=
  List.flatMap_cons

private theorem joinedLines_append (format : Format α) (first second : List α) :
    joinedLines format (first ++ second) = joinedLines format first ++ joinedLines format second :=
  List.flatMap_append

private theorem encodeLine_eq (message : α) :
    encodeLine format message = objectBytes format message ++ [lineFeed] :=
  rfl

private theorem length_encodeLine_pos (format : Format α) (message : α) :
    0 < (encodeLine format message).length := by
  rw [encodeLine_eq, List.length_append, List.length_singleton]
  exact Nat.succ_pos _

private theorem Sink.writeMessage_of_le {message : α} {room : Nat}
    (enough : (encodeLine format message).length ≤ room) (before : List UInt8) :
    Sink.writeMessage ⟨before, some room⟩ format message =
      (.ok (), ⟨before ++ encodeLine format message,
        some (room - (encodeLine format message).length)⟩) := by
  simp [Sink.writeMessage, Sink.write, List.take_of_length_le enough]

private theorem Sink.writeMessage_of_lt {message : α} {room : Nat}
    (short : room < (encodeLine format message).length) (before : List UInt8) :
    Sink.writeMessage ⟨before, some room⟩ format message =
      (.error .writeZero, ⟨before ++ (encodeLine format message).take room, some 0⟩) := by
  have taken := List.length_take_of_le (Nat.le_of_lt short)
  simp [Sink.writeMessage, Sink.write, taken, Nat.ne_of_lt short]

/-- Messages whose lines there is room for, and those behind them, the first of which is too long
for what is left. -/
structure Splits (format : Format α) (messages : List α) (room : Nat) (stored failed : List α) :
    Prop where
  parts : messages = stored ++ failed
  fits : (joinedLines format stored).length ≤ room
  full : ∀ message rest, failed = message :: rest →
    room - (joinedLines format stored).length < (encodeLine format message).length

/-- The outcomes of writing messages that split like this. -/
def writeOutcomes (stored failed : List α) : List (Except WriteError Unit) :=
  stored.map (fun _ => .ok ()) ++ failed.map (fun _ => .error .writeZero)

section Splitting

variable {messages stored failed : List α} {room : Nat}

private theorem Splits.eq_nil (splits : Splits format messages 0 stored failed) : stored = [] := by
  cases stored with
  | nil => rfl
  | cons message rest =>
    have fits := splits.fits
    have begun := length_encodeLine_pos format message
    rw [joinedLines_cons, List.length_append] at fits
    omega

theorem Splits.cons {message : α} (enough : (encodeLine format message).length ≤ room)
    (splits : Splits format messages (room - (encodeLine format message).length) stored failed) :
    Splits format (message :: messages) room (message :: stored) failed := by
  obtain ⟨rfl, fits, full⟩ := splits
  have joined := congrArg List.length (joinedLines_cons format message stored)
  rw [List.length_append] at joined
  refine ⟨rfl, by omega, fun next rest same => ?_⟩
  have short := full next rest same
  omega

private theorem Splits.fits_iff (splits : Splits format messages room stored failed) {place : Nat}
    (inside : place < messages.length) :
    (joinedLines format (messages.take (place + 1))).length ≤ room ↔ place < stored.length := by
  obtain ⟨rfl, fits, full⟩ := splits
  constructor
  · intro held
    apply Nat.lt_of_not_le
    intro behind
    cases failed with
    | nil =>
      rw [List.append_nil] at inside
      exact absurd inside (Nat.not_lt.mpr behind)
    | cons message rest =>
      have short := full message rest rfl
      rw [List.take_append, List.take_of_length_le (Nat.le_succ_of_le behind),
        Nat.succ_sub behind, List.take_succ_cons, joinedLines_append, joinedLines_cons,
        List.length_append, List.length_append] at held
      omega
  · intro before
    have joined := joinedLines_append format (stored.take (place + 1))
      (stored.drop (place + 1))
    rw [List.take_append_drop] at joined
    rw [joined, List.length_append] at fits
    rw [List.take_append_of_le_length (show place + 1 ≤ stored.length from before)]
    omega

/-- A message was written just if its line and all before it fit. -/
theorem Splits.getElem?_outcomes (splits : Splits format messages room stored failed)
    (place : Nat) :
    (writeOutcomes stored failed)[place]? = messages[place]?.map fun _ =>
      if (joinedLines format (messages.take (place + 1))).length ≤ room then .ok ()
      else .error .writeZero := by
  obtain rfl := splits.parts
  rw [writeOutcomes]
  rcases Nat.lt_or_ge place stored.length with before | behind
  · have inside : place < (stored ++ failed).length := by
      rw [List.length_append]
      exact Nat.lt_add_right _ before
    rw [List.getElem?_append_left (by rwa [List.length_map]), List.getElem?_map,
      List.getElem?_append_left before]
    simp only [(splits.fits_iff inside).mpr before, if_true]
  · rw [List.getElem?_append_right (by rwa [List.length_map]), List.getElem?_map,
      List.length_map, List.getElem?_append_right behind]
    cases other : failed[place - stored.length]? with
    | none => rfl
    | some message =>
      have inside : place < (stored ++ failed).length := by
        have bound := (List.getElem?_eq_some_iff.mp other).1
        rw [List.length_append]
        omega
      have short := mt (splits.fits_iff inside).mp (Nat.not_lt.mpr behind)
      simp only [Option.map_some, if_neg short]

private theorem Splits.take_joinedLines (splits : Splits format messages room stored failed) :
    (joinedLines format messages).take room =
      joinedLines format stored ++
        (joinedLines format failed).take (room - (joinedLines format stored).length) := by
  rw [splits.parts, joinedLines_append, List.take_append, List.take_of_length_le splits.fits]

end Splitting

/-- By induction on the messages: a line that fits takes its room, and once one does not fit there
is no room for any other. -/
theorem writeMessages_spec (format : Format α) (messages : List α) (before : List UInt8)
    (room : Nat) :
    ∃ stored failed, Splits format messages room stored failed ∧
      (writeMessages format ⟨before, some room⟩ messages).1 = writeOutcomes stored failed ∧
      (writeMessages format ⟨before, some room⟩ messages).2.written =
        before ++ (joinedLines format messages).take room := by
  induction messages generalizing before room with
  | nil =>
    refine ⟨[], [], ⟨rfl, Nat.zero_le _, fun message rest none => by cases none⟩, rfl, ?_⟩
    simp [writeMessages, joinedLines]
  | cons message rest ih =>
    rcases Nat.lt_or_ge room (encodeLine format message).length with short | enough
    · have first := Sink.writeMessage_of_lt short before
      obtain ⟨stored, failed, splits, results, written⟩ :=
        ih (before ++ (encodeLine format message).take room) 0
      obtain rfl := splits.eq_nil
      obtain rfl : rest = failed := splits.parts
      refine ⟨[], message :: rest, ⟨rfl, Nat.zero_le _, ?full⟩, ?results, ?written⟩
      case full =>
        rintro _ _ ⟨⟩
        exact short
      case results =>
        simp only [writeMessages, first, results]
        rfl
      case written =>
        simp only [writeMessages, first, written]
        rw [List.take_zero, List.append_nil, joinedLines_cons,
          List.take_append_of_le_length (Nat.le_of_lt short)]
    · have first := Sink.writeMessage_of_le enough before
      obtain ⟨stored, failed, splits, results, written⟩ :=
        ih (before ++ encodeLine format message) (room - (encodeLine format message).length)
      refine ⟨message :: stored, failed, splits.cons enough, ?results, ?written⟩
      case results =>
        simp only [writeMessages, first, results]
        rfl
      case written =>
        simp only [writeMessages, first, written]
        rw [joinedLines_cons, List.take_append, List.take_of_length_le enough, List.append_assoc]

/-! ## Reading what was stored -/

/-- What reading gives of the messages that failed, with so much room left for the first of them. -/
inductive Remains (format : Format α) : List α → Nat → List (Except ReadError α) → Prop
  | none (room : Nat) : Remains format [] room []
  | untouched (failed : List α) : Remains format failed 0 []
  | torn (message : α) (rest : List α) (room : Nat) (error : ReadError) :
      0 < room → room < (objectBytes format message).length →
        Remains format (message :: rest) room [.error error]
  | unended (message : α) (rest : List α) :
      Remains format (message :: rest) (objectBytes format message).length [.ok message]

section Reading

variable {failed : List α} {room : Nat}

private theorem readAll_joinedLines (lawful : format.Lawful) (messages : List α)
    (fits : ∀ message ∈ messages, (encodeLine format message).length ≤ maxLineBytes)
    (rest : List UInt8) :
    readAll format (joinedLines format messages ++ rest) =
      messages.map .ok ++ readAll format rest := by
  induction messages with
  | nil => rfl
  | cons message others ih =>
    have isPiece := (isLine_encodeLine message).isPiece (fits message List.mem_cons_self)
    have later := ih fun other member => fits other (List.mem_cons_of_mem _ member)
    rw [joinedLines_cons, List.append_assoc, readAll_piece format isPiece,
      readPiece_encodeLine lawful, later]
    rfl

private theorem readAll_open {bytes : List UInt8} (begun : bytes ≠ []) (noFeed : lineFeed ∉ bytes)
    (fits : bytes.length < maxLineBytes) :
    readAll format bytes = (readPiece format bytes).toList := by
  rw [readAll, pieces_open noFeed fits, if_neg (by simpa using begun), List.filterMap_cons]
  cases readPiece format bytes <;> rfl

/-- What is left of the failed messages: nothing at all, or the front of the first one's object. -/
theorem remains_readAll (exact : format.Exact)
    (fits : ∀ message ∈ failed, (encodeLine format message).length ≤ maxLineBytes)
    (full : ∀ message rest, failed = message :: rest → room < (encodeLine format message).length) :
    Remains format failed room (readAll format ((joinedLines format failed).take room)) := by
  cases failed with
  | nil =>
    rw [joinedLines, List.flatMap_nil, List.take_nil, readAll_nil]
    exact .none room
  | cons message rest =>
    have short := full message rest rfl
    have held := fits message List.mem_cons_self
    rw [encodeLine_eq, List.length_append, List.length_singleton] at short held
    have front : (joinedLines format (message :: rest)).take room =
        (objectBytes format message).take room := by
      rw [joinedLines_cons, encodeLine_eq, List.append_assoc,
        List.take_append_of_le_length (Nat.le_of_lt_succ short)]
    have noFeed : lineFeed ∉ (objectBytes format message).take room :=
      fun member => lineFeed_not_mem_objectBytes message (List.mem_of_mem_take member)
    have size := List.length_take_of_le (Nat.le_of_lt_succ short)
    rw [front]
    rcases Nat.eq_zero_or_pos room with rfl | begun
    · rw [List.take_zero, readAll_nil]
      exact .untouched _
    · have notEmpty : (objectBytes format message).take room ≠ [] :=
        List.ne_nil_of_length_pos (size.symm ▸ begun)
      rw [readAll_open notEmpty noFeed (by omega)]
      rcases Nat.lt_or_eq_of_le (Nat.le_of_lt_succ short) with cut | rfl
      · obtain ⟨error, refused⟩ := readPiece_torn exact
          (List.take_append_drop room (objectBytes format message)).symm notEmpty
          (mt List.drop_eq_nil_iff.mp (Nat.not_le.mpr cut)) (by omega)
        rw [refused]
        exact .torn message rest room error begun cut
      · rw [List.take_length, readPiece_object exact.toLawful (by omega)]
        exact .unended message rest

private theorem Remains.eq_error {message : α} {rest : List α} {left : List (Except ReadError α)}
    (remains : Remains format (message :: rest) room left) (begun : 0 < room)
    (cut : room < (objectBytes format message).length) : ∃ error, left = [.error error] := by
  cases remains with
  | untouched => exact absurd begun (Nat.lt_irrefl 0)
  | torn _ _ _ error => exact ⟨error, rfl⟩
  | unended => exact absurd cut (Nat.lt_irrefl _)

end Reading

end Torn

/-- What becomes of messages that are written to a sink with so much room: which of them are
reported as written, what the sink holds, and what a reader makes of it up to the end and after. -/
structure Format.SurvivesTearing {α : Type} (format : Format α) (messages : List α) (room : Nat) :
    Prop where
  results : ∀ place,
    (writeMessages format ⟨[], some room⟩ messages).1[place]? = messages[place]?.map fun _ =>
      if (joinedLines format (messages.take (place + 1))).length ≤ room then .ok ()
      else .error .writeZero
  held : (writeMessages format ⟨[], some room⟩ messages).2.written =
    (joinedLines format messages).take room
  read : ∃ stored failed left, messages = stored ++ failed ∧
    (writeMessages format ⟨[], some room⟩ messages).1 = writeOutcomes stored failed ∧
    Remains format failed (room - (joinedLines format stored).length) left ∧
    ∀ further,
      readTimes format (stored.length + left.length + further)
          (writeMessages format ⟨[], some room⟩ messages).2.written =
        stored.map (fun message => some (.ok message)) ++ left.map some ++
          List.replicate further none

private theorem Format.Exact.survivesTearing {α : Type} {format : Format α} (exact : format.Exact)
    {messages : List α} (room : Nat)
    (fits : ∀ message ∈ messages, (encodeLine format message).length ≤ maxLineBytes) :
    format.SurvivesTearing messages room := by
  obtain ⟨stored, failed, splits, results, written⟩ :=
    writeMessages_spec format messages [] room
  rw [List.nil_append] at written
  have storedFit : ∀ message ∈ stored, (encodeLine format message).length ≤ maxLineBytes :=
    fun message member => fits message (splits.parts ▸ List.mem_append_left failed member)
  have failedFit : ∀ message ∈ failed, (encodeLine format message).length ≤ maxLineBytes :=
    fun message member => fits message (splits.parts ▸ List.mem_append_right stored member)
  have outcomes := readAll_joinedLines exact.toLawful stored storedFit
    ((joinedLines format failed).take (room - (joinedLines format stored).length))
  rw [← splits.take_joinedLines, ← written] at outcomes
  refine ⟨fun place => ?results, written, stored, failed, _, splits.parts, results,
    remains_readAll exact failedFit splits.full, fun further => ?read⟩
  case results => rw [results, splits.getElem?_outcomes]
  case read =>
    have calls := readTimes_readAll format
      (writeMessages format ⟨[], some room⟩ messages).2.written further
    rwa [outcomes, List.length_append, List.length_map, List.map_append, List.map_map] at calls

/-- A sink that fills up tears at most one line, and nobody reads the torn line as another
message. -/
theorem torn_writes_never_mislead :
    (∀ messages room,
      (∀ message ∈ messages, (encodeLine inboundFormat message).length ≤ maxLineBytes) →
        inboundFormat.SurvivesTearing messages room) ∧
      ∀ messages room,
        (∀ message ∈ messages, (encodeLine stampedFormat message).length ≤ maxLineBytes) →
          stampedFormat.SurvivesTearing messages room :=
  ⟨fun _ room fits => inboundFormat_exact.survivesTearing room fits,
    fun _ room fits => stampedFormat_exact.survivesTearing room fits⟩

/-- The second line is cut between the two bytes of a letter. -/
theorem torn_writes_never_mislead_halved :
    (writeMessages inboundFormat ⟨[], some 41⟩ [⟨"a", "b"⟩, ⟨"é", "c"⟩]).1 =
        [.ok (), .error .writeZero] ∧
      ∃ error, readTimes inboundFormat 3
        (writeMessages inboundFormat ⟨[], some 41⟩ [⟨"a", "b"⟩, ⟨"é", "c"⟩]).2.written =
          [some (.ok ⟨"a", "b"⟩), some (.error error), none] := by
  have results : (writeMessages inboundFormat ⟨[], some 41⟩ [⟨"a", "b"⟩, ⟨"é", "c"⟩]).1 =
      [.ok (), .error .writeZero] := rfl
  obtain ⟨stored, failed, left, parts, outcomes, remains, read⟩ :=
    (torn_writes_never_mislead.1 [⟨"a", "b"⟩, ⟨"é", "c"⟩] 41 (by decide)).read
  refine ⟨results, ?_⟩
  rw [results] at outcomes
  match stored, failed with
  | [], _ => cases parts; cases outcomes
  | [_], _ =>
    cases parts
    obtain ⟨error, rfl⟩ := remains.eq_error (by decide) (by decide)
    exact ⟨error, read 1⟩
  | _ :: _ :: _, _ =>
    cases outcomes

end ChatHub.Wire
