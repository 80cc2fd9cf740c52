import ChatHub.Wire.Frame
/-!
Where a stream is cut. A piece has no line feed but at its end, and is complete with a line feed or
at the limit; cutting a whole stream and cutting it while it arrives both give its pieces.
-/

set_option autoImplicit false

namespace ChatHub.Wire

/-- A complete piece of a stream. -/
structure IsPiece (piece : List UInt8) : Prop where
  parts : ∃ front last, piece = front ++ [last] ∧ lineFeed ∉ front ∧
    (last = lineFeed ∨ piece.length = maxLineBytes)
  fits : piece.length ≤ maxLineBytes

/-- A line is its own bytes and one line feed behind them. -/
def IsLine (line : List UInt8) : Prop :=
  ∃ body, line = body ++ [lineFeed] ∧ lineFeed ∉ body

theorem IsLine.isPiece {line : List UInt8} (isLine : IsLine line)
    (fits : line.length ≤ maxLineBytes) : IsPiece line where
  parts := by
    obtain ⟨body, rfl, noFeed⟩ := isLine
    exact ⟨body, lineFeed, rfl, noFeed, .inl rfl⟩
  fits := fits

theorem IsLine.not_mem_take {line : List UInt8} (isLine : IsLine line) {count : Nat}
    (long : count < line.length) : lineFeed ∉ line.take count := by
  obtain ⟨body, rfl, absent⟩ := isLine
  rw [List.length_append, List.length_singleton] at long
  rw [List.take_append_of_le_length (Nat.le_of_lt_succ long)]
  exact fun member => absent (List.mem_of_mem_take member)

/-- A piece that ends at the limit. -/
theorem isPiece_take {bytes : List UInt8} (noFeed : lineFeed ∉ bytes.take maxLineBytes)
    (long : maxLineBytes ≤ bytes.length) : IsPiece (bytes.take maxLineBytes) where
  parts := by
    have full := List.length_take_of_le long
    have notEmpty : bytes.take maxLineBytes ≠ [] := by
      intro empty
      rw [empty] at full
      cases full
    refine ⟨_, _, (List.dropLast_concat_getLast notEmpty).symm, ?_, .inr full⟩
    exact fun member => noFeed ((List.dropLast_sublist _).subset member)
  fits := List.length_take_le maxLineBytes bytes

/-- The front of a line that is too long. -/
theorem IsLine.take_isPiece {line : List UInt8} (isLine : IsLine line)
    (long : maxLineBytes < line.length) : IsPiece (line.take maxLineBytes) :=
  isPiece_take (isLine.not_mem_take long) (Nat.le_of_lt long)

/-! ## The whole stream -/

private theorem takeLineFrom_piece {front : List UInt8} {last : UInt8} (noFeed : lineFeed ∉ front)
    (taken : List UInt8) {room : Nat} (fits : front.length < room)
    (complete : last = lineFeed ∨ front.length + 1 = room) (rest : List UInt8) :
    takeLineFrom taken room (front ++ last :: rest) =
      (taken.reverse ++ (front ++ [last]), rest) := by
  induction front generalizing taken room with
  | nil =>
    cases room with
    | zero => cases fits
    | succ room =>
      rw [List.nil_append, takeLineFrom]
      split
      · simp
      · rename_i other
        have full := Nat.succ.inj (complete.resolve_left other)
        subst full
        simp [takeLineFrom]
  | cons byte later ih =>
    cases room with
    | zero => cases fits
    | succ room =>
      have other : byte ≠ lineFeed := fun same => noFeed (same ▸ List.mem_cons_self)
      rw [List.cons_append, takeLineFrom, if_neg other,
        ih (fun member => noFeed (List.mem_cons_of_mem _ member)) _ (Nat.lt_of_succ_lt_succ fits)
          (complete.imp_right Nat.succ.inj)]
      simp

theorem takeLine_piece {piece : List UInt8} (isPiece : IsPiece piece) (rest : List UInt8) :
    takeLine (piece ++ rest) = (piece, rest) := by
  obtain ⟨⟨front, last, rfl, noFeed, complete⟩, fits⟩ := isPiece
  rw [List.length_append, List.length_singleton] at fits complete
  rw [takeLine, List.append_assoc, List.singleton_append,
    takeLineFrom_piece noFeed [] fits complete]
  rfl

/-! ## While it arrives -/

theorem LineBuffer.feed_front {front : List UInt8} {last : UInt8} (noFeed : lineFeed ∉ front)
    (buffer : LineBuffer) (fits : buffer.count + front.length < maxLineBytes)
    (complete : last = lineFeed ∨ buffer.count + front.length + 1 = maxLineBytes)
    (rest : List UInt8) :
    buffer.feed (front ++ last :: rest) =
      ((feed {} rest).1, (buffer.held.reverse ++ (front ++ [last])) :: (feed {} rest).2) := by
  induction front generalizing buffer with
  | nil =>
    have ended : (last = lineFeed || buffer.count + 1 = maxLineBytes) = true := by
      simpa using complete
    simp only [List.nil_append, feed, push, ended, if_true, Option.toList_some, List.reverse_cons,
      List.singleton_append]
  | cons byte later ih =>
    have other : byte ≠ lineFeed := fun same => noFeed (same ▸ List.mem_cons_self)
    have room : buffer.count + 1 ≠ maxLineBytes := by
      rw [List.length_cons] at fits
      omega
    have open_ : (byte = lineFeed || buffer.count + 1 = maxLineBytes) = false := by
      simp [other, room]
    rw [List.length_cons] at fits complete
    rw [List.cons_append, feed]
    simp only [push, open_, Bool.false_eq_true, if_false]
    rw [ih (fun member => noFeed (List.mem_cons_of_mem _ member)) ⟨byte :: buffer.held,
      buffer.count + 1⟩ (by simp only; omega) (complete.imp_right fun full => by simp only; omega)]
    simp

theorem LineBuffer.feed_piece {piece : List UInt8} (isPiece : IsPiece piece) (rest : List UInt8) :
    feed {} (piece ++ rest) = ((feed {} rest).1, piece :: (feed {} rest).2) := by
  obtain ⟨⟨front, last, rfl, noFeed, complete⟩, fits⟩ := isPiece
  rw [List.length_append, List.length_singleton] at fits complete
  rw [List.append_assoc, List.singleton_append]
  exact feed_front noFeed {} (by rwa [Nat.zero_add]) (by rwa [Nat.zero_add]) rest

end ChatHub.Wire
