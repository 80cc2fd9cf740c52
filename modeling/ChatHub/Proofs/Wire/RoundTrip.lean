import ChatHub.Proofs.Wire.Reading
import ChatHub.Wire.Writing
/-!
What was written as lines is read as the same messages in the same order, with blank lines anywhere
among them. Main statement: `written_messages_read_back`.
-/

set_option autoImplicit false

namespace ChatHub.Wire

/-- What one line of a stream holds. -/
inductive Entry (α : Type) where
  | blank (returns : Nat)
  | message (content : α)
  deriving DecidableEq, Repr

/-- The bytes of a line. -/
def Entry.bytes {α : Type} (format : Format α) : Entry α → List UInt8
  | .blank returns => blankLine returns
  | .message content => encodeLine format content

/-- The message on a line. -/
def Entry.message? {α : Type} : Entry α → Option α
  | .blank _ => none
  | .message content => some content

/-- The bytes that a sink without a limit holds after lines were written to it in order. -/
def written {α : Type} (format : Format α) (entries : List (Entry α)) : List UInt8 :=
  (entries.foldl (fun (sink : Sink) entry => (sink.write (entry.bytes format)).1) {}).written

section Streams

variable {α : Type} {format : Format α}

theorem written_eq_flatMap (entries : List (Entry α)) :
    written format entries = entries.flatMap (Entry.bytes format) := by
  have fold : ∀ bytes, entries.foldl
      (fun (sink : Sink) entry => (sink.write (entry.bytes format)).1) ⟨bytes, none⟩ =
        ⟨bytes ++ entries.flatMap (Entry.bytes format), none⟩ := by
    induction entries with
    | nil => simp
    | cons entry rest ih =>
      intro bytes
      rw [List.foldl_cons, List.flatMap_cons, ← List.append_assoc]
      exact ih _
  exact congrArg Sink.written (fold [])

theorem Entry.isLine (entry : Entry α) : IsLine (entry.bytes format) := by
  cases entry with
  | blank returns => exact isLine_blankLine returns
  | message content => exact isLine_encodeLine content

theorem readPiece_entry (lawful : format.Lawful) (entry : Entry α) :
    readPiece format (entry.bytes format) = entry.message?.map .ok := by
  cases entry with
  | blank returns => exact readPiece_blankLine returns
  | message content => exact readPiece_encodeLine lawful content

theorem readTimes_nil (calls : Nat) : readTimes format calls [] = List.replicate calls none := by
  induction calls with
  | zero => rfl
  | succ fewer ih => simp only [readTimes, readNext, ih, List.replicate_succ]

private theorem readTimes_of_readNext_eq {first second : List UInt8}
    (same : readNext format first = readNext format second) (calls : Nat) :
    readTimes format calls first = readTimes format calls second := by
  cases calls with
  | zero => rfl
  | succ fewer => rw [readTimes, readTimes, same]

/-- By induction on the lines: one call for each message, and none for a blank line. -/
theorem readTimes_written (lawful : format.Lawful) (entries : List (Entry α))
    (fits : ∀ entry ∈ entries, (entry.bytes format).length ≤ maxLineBytes) (further : Nat) :
    readTimes format ((entries.filterMap Entry.message?).length + further)
        (written format entries) =
      (entries.filterMap Entry.message?).map (fun message => some (.ok message)) ++
        List.replicate further none := by
  rw [written_eq_flatMap]
  induction entries with
  | nil => simpa using readTimes_nil further
  | cons entry rest ih =>
    have later := ih fun other member => fits other (List.mem_cons_of_mem _ member)
    have isPiece := entry.isLine.isPiece (fits entry List.mem_cons_self)
    have front := readNext_piece format isPiece (rest.flatMap (Entry.bytes format))
    rw [readPiece_entry lawful entry] at front
    rw [List.flatMap_cons]
    cases entry with
    | blank returns =>
      rw [readTimes_of_readNext_eq front]
      exact later
    | message content =>
      simp only [Entry.message?, Option.map_some] at front
      simp only [Entry.message?, List.filterMap_cons, List.length_cons, Nat.add_right_comm _ 1,
        readTimes, front, List.map_cons, List.cons_append, later]

end Streams

/-- Messages of this format are read as they were written. Whatever blank lines stand among them,
the calls give the messages in order, and the end of the stream from then on. -/
def Format.ReadsBack {α : Type} (format : Format α) : Prop :=
  ∀ (entries : List (Entry α)) (further : Nat),
    (∀ entry ∈ entries, (entry.bytes format).length ≤ maxLineBytes) →
      readTimes format ((entries.filterMap Entry.message?).length + further)
          (written format entries) =
        (entries.filterMap Entry.message?).map (fun message => some (.ok message)) ++
          List.replicate further none

theorem written_messages_read_back : inboundFormat.ReadsBack ∧ stampedFormat.ReadsBack :=
  ⟨fun entries further fits => readTimes_written inboundFormat_lawful entries fits further,
    fun entries further fits => readTimes_written stampedFormat_lawful entries fits further⟩

/-- Quotes, backslashes and line endings inside a message do not end its line. -/
theorem written_messages_read_back_escaped :
    readTimes inboundFormat 3
        (written inboundFormat [.blank 2, .message ⟨"a\"\\", "\r\n\x00"⟩, .blank 0]) =
      [some (.ok ⟨"a\"\\", "\r\n\x00"⟩), none, none] :=
  written_messages_read_back.1 [.blank 2, .message ⟨"a\"\\", "\r\n\x00"⟩, .blank 0] 2
    (by decide)

end ChatHub.Wire
