import ChatHub.Proofs.Wire.Suffix
/-!
A line that is longer than the limit gives errors only, and reading is in step again from the next
line on. Whatever its fields hold, no part of such a line passes for a message. Main statement:
`overlong_never_smuggles`.
-/

set_option autoImplicit false

namespace ChatHub.Wire

theorem IsLine.drop {line : List UInt8} (isLine : IsLine line) {count : Nat}
    (long : count < line.length) : IsLine (line.drop count) := by
  obtain ⟨body, rfl, absent⟩ := isLine
  rw [List.length_append, List.length_singleton] at long
  refine ⟨body.drop count, List.drop_append_of_le_length (Nat.le_of_lt_succ long), ?_⟩
  exact fun member => absent (List.mem_of_mem_drop member)

/-- A line is cut at the limit as often as it is longer, and ends with a piece that is a line. -/
theorem pieces_line {line : List UInt8} (isLine : IsLine line) :
    ∃ cuts last, line = cuts.flatten ++ last ∧
      (∀ rest, pieces (line ++ rest) = cuts ++ last :: pieces rest) ∧
      (∀ piece ∈ cuts, isCut piece = true) ∧ (maxLineBytes < line.length → cuts ≠ []) := by
  induction size : line.length using Nat.strongRecOn generalizing line with
  | _ total ih =>
  rcases Nat.lt_or_ge maxLineBytes line.length with long | fits
  · have shorter : (line.drop maxLineBytes).length < total := by
      rw [List.length_drop, size]
      have some : 0 < maxLineBytes := by decide
      omega
    obtain ⟨cuts, last, joined, parts, areCut, _⟩ := ih _ shorter (isLine.drop long) rfl
    refine ⟨line.take maxLineBytes :: cuts, last, ?_, ?_, ?_, ?_⟩
    · rw [List.flatten_cons, List.append_assoc, ← joined, List.take_append_drop]
    · intro rest
      rw [List.cons_append, ← parts, ← pieces_piece (isLine.take_isPiece long),
        ← List.append_assoc, List.take_append_drop]
    · exact List.forall_mem_cons.mpr ⟨isLine.isCut_take long, areCut⟩
    · exact fun _ => List.cons_ne_nil _ cuts
  · refine ⟨[], line, rfl, ?_, ?_, ?_⟩
    · exact pieces_piece (isLine.isPiece fits)
    · intro piece member
      cases member
    · intro long
      omega

section Streams

variable {α : Type} {format : Format α}

private theorem exists_errors {ε : Type} {outcomes : List (Except ε α)}
    (refused : ∀ content, .ok content ∉ outcomes) :
    ∃ errors : List ε, outcomes = errors.map .error := by
  induction outcomes with
  | nil => exact ⟨[], rfl⟩
  | cons outcome rest ih =>
    obtain ⟨errors, rfl⟩ := ih fun content member => refused content (List.mem_cons_of_mem _ member)
    cases outcome with
    | error cause => exact ⟨cause :: errors, rfl⟩
    | ok content => exact absurd List.mem_cons_self (refused content)

/-- Every piece of a line that is too long is an error, but for a last one that may be empty. -/
theorem readAll_overlong (demanding : format.IsDemanding) {long : α}
    (tooLong : maxLineBytes < (encodeLine format long).length) :
    ∃ errors, errors ≠ [] ∧ ∀ rest,
      readAll format (encodeLine format long ++ rest) =
        errors.map .error ++ readAll format rest := by
  obtain ⟨cuts, last, joined, parts, areCut, cutOnce⟩ := pieces_line (isLine_encodeLine long)
  have proper : cuts.flatten ≠ [] := by
    obtain ⟨front, others, rfl⟩ := List.exists_cons_of_ne_nil (cutOnce tooLong)
    have full := (isCut_iff.mp (areCut front List.mem_cons_self)).1
    intro empty
    rw [(List.append_eq_nil_iff.mp empty).1] at full
    cases full
  have refused : ∀ content, .ok content ∉ (cuts ++ [last]).filterMap (readPiece format) := by
    intro content member
    obtain ⟨piece, inside, read⟩ := List.mem_filterMap.mp member
    rcases List.mem_append.mp inside with isCut | isLast
    · obtain ⟨error, failed⟩ := readPiece_cut format (areCut piece isCut)
      cases failed.symm.trans read
    · rw [List.mem_singleton.mp isLast] at read
      exact readPiece_suffix demanding joined proper content read
  obtain ⟨errors, outcomes⟩ := exists_errors refused
  refine ⟨errors, ?_, ?_⟩
  · rintro rfl
    obtain ⟨front, others, rfl⟩ := List.exists_cons_of_ne_nil (cutOnce tooLong)
    obtain ⟨error, failed⟩ := readPiece_cut format (areCut front List.mem_cons_self)
    simp [failed] at outcomes
  · intro rest
    rw [readAll, parts, List.append_cons, List.filterMap_append, outcomes, readAll]

private theorem readAll_entries (lawful : format.Lawful) {entries : List (Entry α)}
    (fits : ∀ entry ∈ entries, (entry.bytes format).length ≤ maxLineBytes) (rest : List UInt8) :
    readAll format (entries.flatMap (Entry.bytes format) ++ rest) =
      (entries.filterMap Entry.message?).map .ok ++ readAll format rest := by
  induction entries with
  | nil => rfl
  | cons entry later ih =>
    have isPiece := entry.isLine.isPiece (fits entry List.mem_cons_self)
    have behind := ih fun other member => fits other (List.mem_cons_of_mem _ member)
    rw [List.flatMap_cons, List.append_assoc, readAll_piece format isPiece,
      readPiece_entry lawful entry, behind]
    cases entry <;> rfl

end Streams

/-- In this format a line that is too long is never taken for a message. Between lines that fit,
the calls give errors for it, at least one, and the messages of the others; and no line of a
message gives a message when its front is missing. -/
structure Format.NeverSmuggles {α : Type} (format : Format α) : Prop where
  reads : ∀ (before after : List (Entry α)) (long : α),
    (∀ entry ∈ before ++ after, (entry.bytes format).length ≤ maxLineBytes) →
      maxLineBytes < (encodeLine format long).length →
        ∃ errors, errors ≠ [] ∧ ∀ further,
          readTimes format
              ((before.filterMap Entry.message?).length + errors.length +
                (after.filterMap Entry.message?).length + further)
              (written format (before ++ .message long :: after)) =
            (before.filterMap Entry.message?).map (fun message => some (.ok message)) ++
              errors.map (fun error => some (.error error)) ++
              (after.filterMap Entry.message?).map (fun message => some (.ok message)) ++
              List.replicate further none
  tails : ∀ (message : α) (front tail : List UInt8), encodeLine format message = front ++ tail →
    front ≠ [] → ∀ content, readPiece format tail ≠ some (.ok content)

private theorem neverSmuggles {α : Type} {format : Format α} (lawful : format.Lawful)
    (demanding : format.IsDemanding) : format.NeverSmuggles where
  reads before after long fits tooLong := by
    obtain ⟨fitsBefore, fitsAfter⟩ := List.forall_mem_append.mp fits
    obtain ⟨errors, atLeastOne, outcomes⟩ := readAll_overlong demanding tooLong
    have all : readAll format (written format (before ++ .message long :: after)) =
        (before.filterMap Entry.message?).map .ok ++ (errors.map .error ++
          (after.filterMap Entry.message?).map .ok) := by
      have behind := readAll_entries lawful fitsAfter []
      rw [readAll_nil, List.append_nil, List.append_nil] at behind
      rw [written_eq_flatMap, List.flatMap_append, List.flatMap_cons,
        readAll_entries lawful fitsBefore, Entry.bytes, outcomes, behind]
    refine ⟨errors, atLeastOne, fun further => ?_⟩
    have calls := readTimes_readAll format (written format (before ++ .message long :: after))
      further
    rw [all] at calls
    simpa [Nat.add_assoc, Function.comp_def] using calls
  tails message front tail parts proper content := readPiece_suffix demanding parts proper content

theorem overlong_never_smuggles : inboundFormat.NeverSmuggles ∧ stampedFormat.NeverSmuggles :=
  ⟨neverSmuggles inboundFormat_lawful ⟨.sender, rfl⟩,
    neverSmuggles stampedFormat_lawful ⟨.sender, rfl⟩⟩

private theorem length_le_flatMap {α β : Type} {spell : α → List β}
    (spelled : ∀ item, spell item ≠ [])
    (items : List α) : items.length ≤ (items.flatMap spell).length := by
  induction items with
  | nil => exact Nat.le_refl 0
  | cons item rest ih =>
    have some := List.length_pos_iff.mpr (spelled item)
    rw [List.flatMap_cons, List.length_append, List.length_cons]
    omega

private theorem length_text_le (message : Inbound) :
    message.text.toList.length ≤ (encodeLine inboundFormat message).length := by
  have quoted : ∀ character, Json.Quoted.encodeChar character ≠ [] := by
    intro character
    rcases Json.Quoted.encodeChar_cases character with ⟨_, _, spelled, _⟩ | ⟨_, spelled⟩ |
      ⟨spelled, _⟩ <;> simp [spelled]
  have bytes : ∀ character, Utf8.encodeChar character ≠ [] := by
    intro character
    obtain ⟨lead, tails, parts, _⟩ := Utf8.encodeChar_parts character
    simp [parts]
  have inner := length_le_flatMap quoted message.text.toList
  have outer := length_le_flatMap bytes (inboundFormat.render message)
  have whole : (message.text.toList.flatMap Json.Quoted.encodeChar).length ≤
      (inboundFormat.render message).length := by
    simp only [Format.render, inboundFormat, renderMembers, renderMember, Json.Quoted.encode,
      List.map_cons, List.map_nil, List.length_cons, List.length_append]
    omega
  rw [encodeLine, List.length_append, Utf8.encode]
  omega

/-- The line of another message. -/
def hiddenLine : List Char :=
  "\x7b\"sender\":\"a\",\"message\":\"b\"\x7d".toList

/-- A message that carries that line behind so many other characters. -/
def nested (count : Nat) : Inbound :=
  ⟨"a", String.ofList (List.replicate count 'x' ++ hiddenLine)⟩

private theorem length_nested (count : Nat) :
    count + 28 ≤ (encodeLine inboundFormat (nested count)).length := by
  have text := length_text_le (nested count)
  have inner : hiddenLine.length = 28 := rfl
  rwa [nested, String.toList_ofList, List.length_append, List.length_replicate, inner] at text

/-- Where the limit cuts the line, the line of another message goes on. That message is not read,
and those around it are. -/
theorem overlong_never_smuggles_hidden :
    maxLineBytes < (encodeLine inboundFormat (nested 65511)).length ∧
      ∃ errors, errors ≠ [] ∧
        readTimes inboundFormat (1 + errors.length + 1 + 1)
            (written inboundFormat
              ([.message ⟨"a", "first"⟩] ++ .message (nested 65511) :: [.message ⟨"a", "last"⟩])) =
          [some (.ok ⟨"a", "first"⟩)] ++ errors.map (fun error => some (.error error)) ++
            [some (.ok ⟨"a", "last"⟩)] ++ [none] := by
  have tooLong : maxLineBytes < (encodeLine inboundFormat (nested 65511)).length :=
    Nat.lt_of_lt_of_le (by decide) (length_nested 65511)
  obtain ⟨errors, atLeastOne, calls⟩ := overlong_never_smuggles.1.reads
    [.message ⟨"a", "first"⟩] [.message ⟨"a", "last"⟩] (nested 65511) (by decide) tooLong
  exact ⟨tooLong, errors, atLeastOne, calls 1⟩

end ChatHub.Wire
