import ChatHub.Net.Tcp
import ChatHub.Net.TcpLink
import ChatHub.Proofs.Wire.RoundTrip
/-!
Stamped messages on their way from the hub to the client's side of a TCP connection. Stamping makes
the line of a message longer, and the client has the same limit for its lines as the hub. Main
statement: `relayed_line_read_iff`; `longest_message_not_relayed` shows a message that the hub takes
and its clients cannot read.
-/

set_option autoImplicit false

namespace ChatHub

open Wire

/-! ## Lengths -/

/-- How many bytes stamping adds to the line of a message. -/
def stampBytes (timestamp : String) : Nat :=
  (Utf8.encode (',' :: renderMember .timestamp timestamp)).length

private theorem length_encodeLine {α : Type} (format : Format α) (message : α) :
    (encodeLine format message).length =
      (Utf8.encode (renderMembers
        (format.fields.map fun field => (field, format.value message field)))).length + 3 := by
  have brace : ∀ rest, Utf8.encode ('\x7b' :: rest) = 123 :: Utf8.encode rest := fun _ => rfl
  have last : Utf8.encode ['\x7d'] = [125] := rfl
  simp only [encodeLine, Format.render, brace, Utf8.encode_append, last, List.length_append,
    List.length_cons, List.length_nil]

theorem length_relayed (message : Inbound) (timestamp : String) :
    (TcpPeer.encode (message.stamp timestamp)).length =
      (TcpLink.encode message).length + stampBytes timestamp := by
  have members : renderMembers (stampedFormat.fields.map fun field =>
        (field, stampedFormat.value (message.stamp timestamp) field)) =
      renderMembers (inboundFormat.fields.map fun field =>
        (field, inboundFormat.value message field)) ++
          ',' :: renderMember .timestamp timestamp := by
    simp [stampedFormat, inboundFormat, Inbound.stamp, renderMembers]
  rw [TcpPeer.encode, TcpLink.encode, length_encodeLine, length_encodeLine, members,
    Utf8.encode_append, List.length_append, stampBytes]
  omega

/-! ## One line -/

/-- The line that the hub writes for a stamped message. -/
def relayedLine (sent : Inbound × String) : List UInt8 :=
  TcpPeer.encode (sent.1.stamp sent.2)

/-- Whether there is room on a line for a message and its stamp. -/
def staysReadable (sent : Inbound × String) : Bool :=
  (TcpLink.encode sent.1).length + stampBytes sent.2 ≤ maxLineBytes

theorem isLine_relayedLine (sent : Inbound × String) : IsLine (relayedLine sent) :=
  isLine_encodeLine _

theorem staysReadable_iff (sent : Inbound × String) :
    staysReadable sent = true ↔ (relayedLine sent).length ≤ maxLineBytes := by
  rw [staysReadable, decide_eq_true_iff, relayedLine, length_relayed]

private theorem relayedLine_isPiece {sent : Inbound × String}
    (readable : staysReadable sent = true) :
    IsPiece (relayedLine sent) :=
  (isLine_relayedLine sent).isPiece ((staysReadable_iff sent).mp readable)

private theorem relayedLine_tooLong {sent : Inbound × String}
    (unreadable : ¬staysReadable sent = true) :
    maxLineBytes < (relayedLine sent).length :=
  Nat.lt_of_not_le fun fits => unreadable ((staysReadable_iff sent).mpr fits)

private theorem readPiece_relayedLine (sent : Inbound × String) :
    readPiece stampedFormat (relayedLine sent) = some (.ok (sent.1.stamp sent.2)) :=
  readPiece_encodeLine stampedFormat_lawful _

/-! ## The client's side -/

namespace TcpLink

/-- Once it has stopped, a link looks at nothing any more. -/
theorem foldl_takePiece_stopped (link : TcpLink) (pieces : List (List UInt8)) :
    pieces.foldl takePiece link.stopReading = link.stopReading := by
  induction pieces with
  | nil => rfl
  | cons piece rest ih => exact ih

/-- A link between two lines takes the first piece and then the rest. -/
theorem receive_piece (line : Line) {piece : List UInt8} (isPiece : IsPiece piece)
    (rest : List UInt8) :
    ({ line } : TcpLink).receive (piece ++ rest) =
      (({ line } : TcpLink).takePiece piece).receive rest := by
  simp only [receive, takePiece, if_true, LineBuffer.feed_piece isPiece, List.foldl_cons]
  cases readPiece stampedFormat piece with
  | none => rfl
  | some outcome =>
    cases outcome with
    | ok message => rfl
    | error error => exact foldl_takePiece_stopped _ _

private theorem receive_readable (line : Line) {sent : Inbound × String}
    (readable : staysReadable sent = true) (rest : List UInt8) :
    ({ line } : TcpLink).receive (relayedLine sent ++ rest) =
      ({ line := line.deliver (sent.1.stamp sent.2) } : TcpLink).receive rest := by
  rw [receive_piece line (relayedLine_isPiece readable)]
  simp only [takePiece, if_true, readPiece_relayedLine]

private theorem receive_unreadable (line : Line) {sent : Inbound × String}
    (unreadable : ¬staysReadable sent = true) (rest : List UInt8) :
    ({ line } : TcpLink).receive (relayedLine sent ++ rest) =
      { line := line.hangUp, isReading := false } := by
  have isLine := isLine_relayedLine sent
  have long := relayedLine_tooLong unreadable
  obtain ⟨error, read⟩ := readPiece_cut stampedFormat (isLine.isCut_take long)
  rw [← List.take_append_drop maxLineBytes (relayedLine sent), List.append_assoc,
    receive_piece line (isLine.take_isPiece long)]
  simp only [takePiece, if_true, read]
  rfl

/-- By induction on the messages: all up to the first without room arrive, and that one ends the
reading. -/
theorem receive_relayed (line : Line) (relayed : List (Inbound × String)) :
    ({ line } : TcpLink).receive (relayed.flatMap relayedLine) =
      let delivered := (relayed.takeWhile staysReadable).foldl
        (fun line sent => line.deliver (sent.1.stamp sent.2)) line
      if relayed.all staysReadable then { line := delivered }
      else { line := delivered.hangUp, isReading := false } := by
  induction relayed generalizing line with
  | nil => rfl
  | cons sent rest ih =>
    rw [List.flatMap_cons]
    by_cases readable : staysReadable sent = true
    · rw [receive_readable line readable, ih]
      simp only [List.takeWhile_cons, readable, if_true, List.foldl_cons, List.all_cons,
        Bool.true_and]
    · rw [receive_unreadable line readable]
      simp only [List.takeWhile_cons, readable, Bool.false_eq_true, if_false, List.foldl_nil,
        List.all_cons, Bool.false_and]

end TcpLink

/-- A client reads the line of a relayed message exactly if there is room for its stamp. Of what a
hub relays to a link, everything before the first message without room arrives, and that one ends
the link's reading. -/
theorem relayed_line_read_iff (message : Inbound) (timestamp : String) (rest : List UInt8)
    (line : Line) (relayed : List (Inbound × String)) :
    (readNext stampedFormat (relayedLine (message, timestamp) ++ rest) =
        (some (.ok (message.stamp timestamp)), rest) ↔
      (TcpLink.encode message).length + stampBytes timestamp ≤ maxLineBytes) ∧
    ({ line } : TcpLink).receive (relayed.flatMap relayedLine) =
      let delivered := (relayed.takeWhile staysReadable).foldl
        (fun line sent => line.deliver (sent.1.stamp sent.2)) line
      if relayed.all staysReadable then { line := delivered }
      else { line := delivered.hangUp, isReading := false } := by
  refine ⟨⟨fun read => ?_, fun fits => ?_⟩, TcpLink.receive_relayed line relayed⟩
  · refine Nat.le_of_not_lt fun long => ?_
    have tooLong : maxLineBytes < (relayedLine (message, timestamp)).length := by
      rwa [relayedLine, length_relayed]
    obtain ⟨error, failed⟩ := readNext_tooLong stampedFormat (isLine_relayedLine _) tooLong rest
    rw [read] at failed
    cases failed
  · have readable : staysReadable (message, timestamp) = true := by
      rwa [staysReadable_iff, relayedLine, length_relayed]
    rw [readNext_piece _ (relayedLine_isPiece readable), readPiece_relayedLine]

/-! ## A message without room for a stamp -/

/-- A message whose text is so many times the same letter. -/
def repeated (count : Nat) : Inbound :=
  { sender := "a", text := String.ofList (List.replicate count 'x') }

private theorem length_encode_repeated (count : Nat) :
    (TcpLink.encode (repeated count)).length = count + 28 := by
  have spelled : (List.replicate count 'x').flatMap Json.Quoted.encodeChar =
      List.replicate count 'x' := by
    induction count with
    | zero => rfl
    | succ fewer ih =>
      rw [List.replicate_succ, List.flatMap_cons, ih]
      rfl
  have bytes : (Utf8.encode (List.replicate count 'x')).length = count := by
    rw [Utf8.encode_replicate (show Utf8.encodeChar 'x' = [120] from rfl), List.length_replicate]
  have front : (Utf8.encode (renderMember .sender "a" ++
      ',' :: (Json.Quoted.encode Field.text.name.toList ++ [':', '"']))).length = 24 := rfl
  have members : renderMembers (inboundFormat.fields.map fun field =>
        (field, inboundFormat.value (repeated count) field)) =
      (renderMember .sender "a" ++
        ',' :: (Json.Quoted.encode Field.text.name.toList ++ [':', '"'])) ++
          (List.replicate count 'x' ++ ['"']) := by
    simp [inboundFormat, repeated, renderMembers, renderMember, Json.Quoted.encode, spelled]
  have quote : (Utf8.encode ['"']).length = 1 := rfl
  rw [TcpLink.encode, length_encodeLine, members, Utf8.encode_append, List.length_append, front,
    Utf8.encode_append, List.length_append, bytes, quote]
  omega

private theorem repeated_not_relayed {count : Nat} {timestamp : String}
    (fits : count + 28 ≤ maxLineBytes) (noRoom : maxLineBytes < count + 28 + stampBytes timestamp) :
    readNext inboundFormat (TcpLink.encode (repeated count)) = (some (.ok (repeated count)), []) ∧
      (∃ error, (readNext stampedFormat (relayedLine (repeated count, timestamp))).1 =
        some (.error error)) ∧
      (({} : TcpLink).receive (relayedLine (repeated count, timestamp))).isReading = false := by
  have isLine : IsLine (TcpLink.encode (repeated count)) := isLine_encodeLine _
  have unreadable : ¬staysReadable (repeated count, timestamp) = true := by
    rw [staysReadable_iff, relayedLine, length_relayed, length_encode_repeated]
    exact Nat.not_le_of_lt noRoom
  refine ⟨?_, ?_, ?_⟩
  · have isPiece := isLine.isPiece (by rwa [length_encode_repeated])
    have taken := readNext_piece inboundFormat isPiece []
    rwa [List.append_nil, TcpLink.encode, readPiece_encodeLine inboundFormat_lawful] at taken
  · have failed := readNext_tooLong stampedFormat (isLine_relayedLine _)
      (relayedLine_tooLong unreadable) []
    rwa [List.append_nil] at failed
  · have stopped := TcpLink.receive_unreadable {} unreadable []
    rw [List.append_nil] at stopped
    rw [stopped]

/-- The hub takes a message whose line is as long as the limit, and no client can read what it
relays. -/
theorem longest_message_not_relayed :
    readNext inboundFormat (TcpLink.encode (repeated 65508)) =
        (some (.ok (repeated 65508)), []) ∧
      (∃ error, (readNext stampedFormat
        (relayedLine (repeated 65508, "2025-01-01T00:00:00Z"))).1 = some (.error error)) ∧
      (({} : TcpLink).receive
        (relayedLine (repeated 65508, "2025-01-01T00:00:00Z"))).isReading = false := by
  have added : stampBytes "2025-01-01T00:00:00Z" = 35 := rfl
  exact repeated_not_relayed (by decide) (by rw [added]; decide)

end ChatHub
