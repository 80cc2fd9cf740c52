import ChatHub.Proofs.Text.Utf8
import ChatHub.Proofs.Wire.Frame
import ChatHub.Proofs.Wire.Line
import ChatHub.Wire.Reading
/-!
What a reader makes of one piece: the line of a message holds that message, a blank line holds
nothing, and a piece that was cut is an error.
-/

set_option autoImplicit false

namespace ChatHub.Wire

open Json

variable {α : Type} {format : Format α}

theorem lineFeed_byte : Utf8.encode ['\n'] = [lineFeed] :=
  rfl

theorem isLine_encode {text : List Char} (noFeed : '\n' ∉ text) :
    IsLine (Utf8.encode text ++ [lineFeed]) :=
  ⟨_, rfl, Utf8.lineFeed_not_mem_encode noFeed⟩

section Printable

variable {character : Char}

private theorem printable_of_mem_renderMember {field : Field} {value : String}
    (member : character ∈ renderMember field value) : 0x20 ≤ character.toNat := by
  rcases List.mem_append.mp member with inName | behind
  · exact Quoted.printable_of_mem_encode inName
  · rcases List.mem_cons.mp behind with rfl | inValue
    · decide
    · exact Quoted.printable_of_mem_encode inValue

private theorem printable_of_mem_renderMembers {members : List (Field × String)}
    (member : character ∈ renderMembers members) : 0x20 ≤ character.toNat := by
  cases members with
  | nil => cases member
  | cons first rest =>
    rw [renderMembers_cons, List.mem_append, List.mem_flatMap] at member
    rcases member with inFirst | ⟨next, _, inNext⟩
    · exact printable_of_mem_renderMember inFirst
    · rcases List.mem_cons.mp inNext with rfl | inside
      · decide
      · exact printable_of_mem_renderMember inside

/-- Every part of an object is printable, so it has no line endings inside. -/
theorem printable_of_mem_render {message : α} (member : character ∈ format.render message) :
    0x20 ≤ character.toNat := by
  rcases List.mem_cons.mp member with rfl | inside
  · decide
  · rcases List.mem_append.mp inside with inMembers | last
    · exact printable_of_mem_renderMembers inMembers
    · rw [List.mem_singleton.mp last]
      decide

end Printable

theorem isLine_encodeLine (message : α) : IsLine (encodeLine format message) :=
  isLine_encode fun member => absurd (printable_of_mem_render member) (by decide)

/-- A piece that ends in a line feed was not cut. -/
theorem isCut_line {line : List UInt8} (isLine : IsLine line) : isCut line = false := by
  obtain ⟨body, rfl, _⟩ := isLine
  simp [isCut]

/-- Nor was one that is shorter than the limit. -/
theorem isCut_of_lt {piece : List UInt8} (short : piece.length < maxLineBytes) :
    isCut piece = false := by
  simp [isCut, Nat.ne_of_lt short]

/-- A piece with more than line endings on it gives what its line does. -/
theorem readPiece_text {piece : List UInt8} {text : List Char}
    (decoded : Utf8.decode piece = .ok text) (whole : isCut piece = false)
    (notEmpty : trimLine text ≠ []) :
    readPiece format piece = some ((decodeLine format (trimLine text)).mapError fun failure =>
      .malformed failure.cause (failure.column (trimLine text))) := by
  simp only [readPiece, decoded, whole, Bool.false_eq_true, if_false,
    if_neg (mt List.isEmpty_iff.mp notEmpty)]
  cases decodeLine format (trimLine text) <;> rfl

theorem decode_line (text : List Char) :
    Utf8.decode (Utf8.encode text ++ [lineFeed]) = .ok (text ++ ['\n']) := by
  rw [← lineFeed_byte, ← Utf8.encode_append, Utf8.decode_encode]

theorem trimLine_render (message : α) :
    trimLine (format.render message ++ ['\n']) = format.render message := by
  have ending : isLineEnding '\n' = true := rfl
  have brace : isLineEnding '\x7d' = false := rfl
  rw [Format.render, ← List.cons_append]
  generalize '\x7b' :: renderMembers _ = front
  simp [trimLine, ending, brace]

/-- The line of a message holds that message. -/
theorem readPiece_encodeLine (lawful : format.Lawful) (message : α) :
    readPiece format (encodeLine format message) = some (.ok message) := by
  have decoded : Utf8.decode (encodeLine format message) = .ok (format.render message ++ ['\n']) :=
    decode_line _
  have notEmpty : trimLine (format.render message ++ ['\n']) ≠ [] := by
    rw [trimLine_render]
    exact List.cons_ne_nil _ _
  rw [readPiece_text decoded (isCut_line (isLine_encodeLine message)) notEmpty, trimLine_render,
    decodeLine_render lawful]
  rfl

/-- The bytes of a line with nothing but carriage returns on it. -/
def blankLine (returns : Nat) : List UInt8 :=
  List.replicate returns 13 ++ [lineFeed]

private theorem blankLine_eq_encode (returns : Nat) :
    blankLine returns = Utf8.encode (List.replicate returns '\r') ++ [lineFeed] := by
  rw [Utf8.encode_replicate (show Utf8.encodeChar '\r' = [13] from rfl)]
  rfl

theorem isLine_blankLine (returns : Nat) : IsLine (blankLine returns) := by
  rw [blankLine_eq_encode]
  exact isLine_encode fun member => absurd (List.eq_of_mem_replicate member) (by decide)

private theorem trimLine_blank (returns : Nat) :
    trimLine (List.replicate returns '\r' ++ ['\n']) = [] := by
  have feed : isLineEnding '\n' = true := rfl
  have carriage : isLineEnding '\r' = true := rfl
  simp [trimLine, feed, carriage]

theorem readPiece_blankLine (returns : Nat) : readPiece format (blankLine returns) = none := by
  have whole := isCut_line (isLine_blankLine returns)
  have decoded : Utf8.decode (blankLine returns) =
      .ok (List.replicate returns '\r' ++ ['\n']) := by
    rw [blankLine_eq_encode, decode_line]
  simp only [readPiece, decoded, whole, Bool.false_eq_true, if_false, trimLine_blank,
    List.isEmpty_nil, if_true]

/-! ## Pieces that were cut -/

theorem IsLine.isCut_take {line : List UInt8} (isLine : IsLine line)
    (long : maxLineBytes < line.length) : isCut (line.take maxLineBytes) = true := by
  have full := List.length_take_of_le (Nat.le_of_lt long)
  have unfinished : (line.take maxLineBytes).getLast? ≠ some lineFeed := fun last =>
    isLine.not_mem_take long (List.mem_of_getLast? last)
  simp [isCut, full, unfinished]

theorem readPiece_cut (format : Format α) {piece : List UInt8} (cut : isCut piece = true) :
    ∃ error, readPiece format piece = some (.error error) := by
  unfold readPiece
  cases Utf8.decode piece with
  | error fault => exact ⟨_, rfl⟩
  | ok text => exact ⟨.tooLong, by simp only [cut, if_true]⟩

/-! ## One call -/

/-- A reader takes a whole piece, and goes on behind it if the piece holds nothing. -/
theorem readNext_piece (format : Format α) {piece : List UInt8} (isPiece : IsPiece piece)
    (rest : List UInt8) :
    readNext format (piece ++ rest) =
      match readPiece format piece with
      | some outcome => (some outcome, rest)
      | none => readNext format rest := by
  have front := takeLine_piece isPiece rest
  obtain ⟨byte, later, bytes⟩ : ∃ byte later, piece ++ rest = byte :: later := by
    obtain ⟨⟨body, last, rfl, _⟩, _⟩ := isPiece
    exact List.exists_cons_of_ne_nil (by simp)
  rw [bytes] at front ⊢
  rw [readNext]
  cases read : readPiece format piece with
  | none => simp only [front, read]
  | some outcome => simp only [front, read]

/-- A line that is too long gives an error first. -/
theorem readNext_tooLong (format : Format α) {line : List UInt8} (isLine : IsLine line)
    (long : maxLineBytes < line.length) (rest : List UInt8) :
    ∃ error, (readNext format (line ++ rest)).1 = some (.error error) := by
  obtain ⟨error, read⟩ := readPiece_cut format (isLine.isCut_take long)
  have front := readNext_piece format (isLine.take_isPiece long)
    (line.drop maxLineBytes ++ rest)
  rw [← List.append_assoc, List.take_append_drop, read] at front
  exact ⟨error, congrArg Prod.fst front⟩

end ChatHub.Wire
