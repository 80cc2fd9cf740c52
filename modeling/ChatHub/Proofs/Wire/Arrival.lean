import ChatHub.Proofs.Wire.Frame
import ChatHub.Wire.Reading
/-!
A stream that arrives little by little. Whatever it is cut into on the way, its complete pieces are
given out once they are there and the rest when it ends, and these are the pieces of the uncut
stream. Main statement: `feed_spec`.
-/

set_option autoImplicit false

namespace ChatHub.Wire

/-- Whether a piece ends before the stream does. -/
def isComplete (piece : List UInt8) : Bool :=
  piece.getLast? = some lineFeed || piece.length = maxLineBytes

theorem LineBuffer.feed_append (buffer : LineBuffer) (first second : List UInt8) :
    buffer.feed (first ++ second) =
      (((buffer.feed first).1.feed second).1,
        (buffer.feed first).2 ++ ((buffer.feed first).1.feed second).2) := by
  induction first generalizing buffer with
  | nil => rfl
  | cons byte rest ih => simp only [List.cons_append, feed, ih, List.append_assoc]

/-- Bytes that do not complete a piece are held. -/
theorem LineBuffer.feed_open {bytes : List UInt8} (noFeed : lineFeed ∉ bytes)
    (buffer : LineBuffer) (fits : buffer.count + bytes.length < maxLineBytes) :
    buffer.feed bytes =
      (⟨bytes.reverse ++ buffer.held, buffer.count + bytes.length⟩, []) := by
  induction bytes generalizing buffer with
  | nil => rfl
  | cons byte rest ih =>
    rw [List.length_cons] at fits
    have other : byte ≠ lineFeed := fun same => noFeed (same ▸ List.mem_cons_self)
    have room : buffer.count + 1 ≠ maxLineBytes := by omega
    have held : (byte = lineFeed || buffer.count + 1 = maxLineBytes) = false := by
      simp [other, room]
    have pushed : buffer.push byte = (⟨byte :: buffer.held, buffer.count + 1⟩, none) := by
      simp only [push, held, Bool.false_eq_true, if_false]
    have later := ih (fun member => noFeed (List.mem_cons_of_mem _ member))
      ⟨byte :: buffer.held, buffer.count + 1⟩ (by simp only; omega)
    simp only [feed, pushed, later, List.reverse_cons, List.append_assoc, List.singleton_append,
      List.length_cons, Option.toList_none, List.nil_append]
    congr 2
    omega

/-- A stream begins with a complete piece, or it is less than one. -/
theorem exists_piece (bytes : List UInt8) :
    (∃ piece rest, bytes = piece ++ rest ∧ IsPiece piece) ∨
      (lineFeed ∉ bytes ∧ bytes.length < maxLineBytes) := by
  by_cases feed : lineFeed ∈ bytes.take maxLineBytes
  · obtain ⟨front, later, split, noFeed⟩ := List.eq_append_cons_of_mem feed
    have short := List.length_take_le maxLineBytes bytes
    refine .inl ⟨front ++ [lineFeed], later ++ bytes.drop maxLineBytes, ?_, ?_⟩
    · rw [List.append_assoc, List.singleton_append, ← List.cons_append, ← List.append_assoc,
        ← split, List.take_append_drop]
    · rw [split, List.length_append, List.length_cons] at short
      exact
        { parts := ⟨front, lineFeed, rfl, noFeed, .inl rfl⟩
          fits := by rw [List.length_append, List.length_singleton]; omega }
  · by_cases long : maxLineBytes ≤ bytes.length
    · exact .inl ⟨_, _, (List.take_append_drop maxLineBytes bytes).symm, isPiece_take feed long⟩
    · have short := Nat.lt_of_not_le long
      rw [List.take_of_length_le (Nat.le_of_lt short)] at feed
      exact .inr ⟨feed, short⟩

/-- A stream is less than a complete piece, or one and then another stream. -/
@[elab_as_elim]
theorem piece_induction {motive : List UInt8 → Prop} (bytes : List UInt8)
    (unfinished : ∀ bytes, lineFeed ∉ bytes → bytes.length < maxLineBytes → motive bytes)
    (finished : ∀ piece rest, IsPiece piece → motive rest → motive (piece ++ rest)) :
    motive bytes := by
  induction size : bytes.length using Nat.strongRecOn generalizing bytes with
  | _ total ih =>
  rcases exists_piece bytes with ⟨piece, rest, rfl, isPiece⟩ | ⟨noFeed, fits⟩
  · have shorter : rest.length < total := by
      obtain ⟨⟨front, last, rfl, _⟩, _⟩ := isPiece
      simp only [List.length_append, List.length_singleton] at size
      omega
    exact finished piece rest isPiece (ih rest.length shorter rest rfl)
  · exact unfinished bytes noFeed fits

theorem pieces_piece {piece : List UInt8} (isPiece : IsPiece piece) (rest : List UInt8) :
    pieces (piece ++ rest) = piece :: pieces rest := by
  have front := takeLine_piece isPiece rest
  obtain ⟨byte, later, bytes⟩ : ∃ byte later, piece ++ rest = byte :: later := by
    obtain ⟨⟨body, last, rfl, _⟩, _⟩ := isPiece
    exact List.exists_cons_of_ne_nil (by simp)
  rw [bytes] at front ⊢
  rw [pieces, front]

theorem takeLineFrom_open {bytes : List UInt8} (noFeed : lineFeed ∉ bytes) (taken : List UInt8)
    {room : Nat} (fits : bytes.length < room) :
    takeLineFrom taken room bytes = (taken.reverse ++ bytes, []) := by
  induction bytes generalizing taken room with
  | nil =>
    cases room with
    | zero => cases fits
    | succ room => simp [takeLineFrom]
  | cons byte rest ih =>
    cases room with
    | zero => cases fits
    | succ room =>
      have other : byte ≠ lineFeed := fun same => noFeed (same ▸ List.mem_cons_self)
      rw [takeLineFrom, if_neg other, ih (fun member => noFeed (List.mem_cons_of_mem _ member)) _
        (Nat.lt_of_succ_lt_succ fits)]
      simp

theorem pieces_open {bytes : List UInt8} (noFeed : lineFeed ∉ bytes)
    (fits : bytes.length < maxLineBytes) :
    pieces bytes = if bytes.isEmpty then [] else [bytes] := by
  cases bytes with
  | nil => rw [pieces]; rfl
  | cons byte rest =>
    rw [pieces, takeLine, takeLineFrom_open noFeed [] fits, pieces]
    rfl

theorem IsPiece.isComplete {piece : List UInt8} (isPiece : IsPiece piece) :
    isComplete piece = true := by
  obtain ⟨⟨front, last, rfl, _, complete⟩, _⟩ := isPiece
  rcases complete with rfl | full
  · simp [Wire.isComplete]
  · simp [Wire.isComplete, full]

/-- What has been given out of a stream that is arriving are its complete pieces, and what is held
is the rest. -/
theorem feed_spec (bytes : List UInt8) :
    (LineBuffer.feed {} bytes).2 = (pieces bytes).filter isComplete ∧
      pieces bytes =
        (LineBuffer.feed {} bytes).2 ++ (LineBuffer.feed {} bytes).1.finish.toList := by
  induction bytes using piece_induction with
  | finished piece rest isPiece later =>
    rw [LineBuffer.feed_piece isPiece, pieces_piece isPiece,
      List.filter_cons_of_pos isPiece.isComplete]
    exact ⟨congrArg (piece :: ·) later.1, congrArg (piece :: ·) later.2⟩
  | unfinished bytes noFeed fits =>
    have open_ : isComplete bytes = false := by
      have ended : bytes.getLast? ≠ some lineFeed := fun last =>
        noFeed (List.mem_of_getLast? last)
      simp [isComplete, ended, Nat.ne_of_lt fits]
    have held := LineBuffer.feed_open noFeed {} (by rwa [Nat.zero_add])
    rw [held, pieces_open noFeed fits]
    cases bytes with
    | nil => exact ⟨rfl, rfl⟩
    | cons byte rest =>
      refine ⟨?_, ?_⟩
      · rw [List.isEmpty_cons, if_neg Bool.false_ne_true, List.filter_cons_of_neg (by simp [open_])]
        rfl
      · simp [LineBuffer.finish]

/-! ## Up to the first refusal -/

section Outcomes

variable {ε α : Type}

/-- The messages in front of the first refusal. -/
def beforeError : List (Except ε α) → List α
  | .ok message :: rest => message :: beforeError rest
  | _ => []

/-- Whether anything was refused. -/
def hasError (outcomes : List (Except ε α)) : Bool :=
  outcomes.any fun outcome => !outcome.isOk

theorem beforeError_append (first second : List (Except ε α)) :
    beforeError (first ++ second) =
      beforeError first ++ if hasError first then [] else beforeError second := by
  induction first with
  | nil => rfl
  | cons outcome rest ih =>
    cases outcome with
    | error cause => rfl
    | ok message =>
      rw [List.cons_append, beforeError, ih]
      rfl

theorem hasError_append (first second : List (Except ε α)) :
    hasError (first ++ second) = (hasError first || hasError second) :=
  List.any_append

end Outcomes

end ChatHub.Wire
