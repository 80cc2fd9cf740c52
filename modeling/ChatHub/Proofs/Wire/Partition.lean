import ChatHub.Proofs.Text.Utf8
import ChatHub.Proofs.Wire.Arrival
import ChatHub.Proofs.Wire.RoundTrip
/-!
Reading a stream to its end takes it apart without a gap. Its pieces follow each other, each call
goes on where the one before stopped, and what a piece gives depends on that piece alone. Main
statement: `reading_partitions`.
-/

set_option autoImplicit false

namespace ChatHub.Wire

/-! ## Pieces -/

/-- What every piece of a stream is, the last one included. -/
structure IsChunk (piece : List UInt8) : Prop where
  notEmpty : piece ≠ []
  fits : piece.length ≤ maxLineBytes
  noFeedInside : lineFeed ∉ piece.dropLast

private theorem IsPiece.isChunk {piece : List UInt8} (isPiece : IsPiece piece) : IsChunk piece := by
  obtain ⟨⟨front, last, rfl, noFeed, _⟩, fits⟩ := isPiece
  constructor
  · simp
  · exact fits
  · rwa [List.dropLast_concat]

private theorem flatten_pieces (bytes : List UInt8) : (pieces bytes).flatten = bytes := by
  induction bytes using piece_induction with
  | finished piece rest isPiece ih => rw [pieces_piece isPiece, List.flatten_cons, ih]
  | unfinished bytes noFeed fits =>
    rw [pieces_open noFeed fits]
    cases bytes with
    | nil => rfl
    | cons byte rest => simp

private theorem isChunk_of_mem_pieces {bytes piece : List UInt8} (member : piece ∈ pieces bytes) :
    IsChunk piece := by
  induction bytes using piece_induction with
  | finished front rest isPiece ih =>
    rw [pieces_piece isPiece] at member
    rcases List.mem_cons.mp member with rfl | later
    · exact isPiece.isChunk
    · exact ih later
  | unfinished bytes noFeed fits =>
    rw [pieces_open noFeed fits] at member
    cases bytes with
    | nil => cases member
    | cons byte rest =>
      obtain rfl := List.mem_singleton.mp member
      constructor
      · exact List.cons_ne_nil byte rest
      · exact Nat.le_of_lt fits
      · intro inside
        exact noFeed ((List.dropLast_sublist _).subset inside)

private theorem isComplete_of_mem_dropLast {bytes piece : List UInt8}
    (member : piece ∈ (pieces bytes).dropLast) : isComplete piece = true := by
  induction bytes using piece_induction with
  | finished front rest isPiece ih =>
    rw [pieces_piece isPiece] at member
    cases later : pieces rest with
    | nil =>
      rw [later] at member
      cases member
    | cons next others =>
      rw [later, List.dropLast_cons_of_ne_nil (List.cons_ne_nil next others)] at member
      rcases List.mem_cons.mp member with rfl | inside
      · exact isPiece.isComplete
      · apply ih
        rwa [later]
  | unfinished bytes noFeed fits =>
    rw [pieces_open noFeed fits] at member
    split at member <;> cases member

/-- Where one stream ends with a line, the next one begins with a piece of its own. -/
theorem pieces_append {first : List UInt8}
    (ended : first = [] ∨ first.getLast? = some lineFeed) (second : List UInt8) :
    pieces (first ++ second) = pieces first ++ pieces second := by
  induction first using piece_induction with
  | finished piece rest isPiece ih =>
    have endedLater : rest = [] ∨ rest.getLast? = some lineFeed := by
      rcases ended with empty | last
      · exact .inl (List.append_eq_nil_iff.mp empty).2
      · cases rest with
        | nil => exact .inl rfl
        | cons byte later =>
          rw [List.getLast?_append, List.getLast?_cons, Option.some_or] at last
          exact .inr (by rw [List.getLast?_cons, last])
    rw [List.append_assoc, pieces_piece isPiece, pieces_piece isPiece, ih endedLater,
      List.cons_append]
  | unfinished bytes noFeed fits =>
    rcases ended with rfl | last
    · rw [pieces]
      rfl
    · exact absurd (List.mem_of_getLast? last) noFeed

section Outcomes

variable {α : Type} {format : Format α} {piece : List UInt8}

/-! ## The outcome of one piece -/

/-- The line that a piece holds: its text without the line endings at its end. -/
structure HasLine (piece : List UInt8) (line : List Char) : Prop where
  spelled : ∃ ending, Utf8.encode (line ++ ending) = piece ∧
    ∀ character ∈ ending, isLineEnding character = true
  trimmed : ∀ character, line.getLast? = some character → isLineEnding character = false

/-- The outcome that a piece has to have, the first that applies. -/
inductive Verdict (format : Format α) (piece : List UInt8) :
    Option (Except ReadError α) → Prop
  | notText (fault : Utf8.Fault) :
      (∀ text, Utf8.encode text ≠ piece) → Utf8.decode piece = .error fault →
        Verdict format piece (some (.error (.notText fault)))
  | tooLong (text : List Char) :
      Utf8.encode text = piece → piece.length = maxLineBytes →
        piece.getLast? ≠ some lineFeed → Verdict format piece (some (.error .tooLong))
  | blank :
      ¬(piece.length = maxLineBytes ∧ piece.getLast? ≠ some lineFeed) →
        (∀ byte ∈ piece, byte = 10 ∨ byte = 13) → Verdict format piece none
  | message (line : List Char) (content : α) :
      ¬(piece.length = maxLineBytes ∧ piece.getLast? ≠ some lineFeed) → HasLine piece line →
        line ≠ [] → decodeLine format line = .ok content →
          Verdict format piece (some (.ok content))
  | malformed (line : List Char) (failure : Json.Failure) :
      ¬(piece.length = maxLineBytes ∧ piece.getLast? ≠ some lineFeed) → HasLine piece line →
        line ≠ [] → decodeLine format line = .error failure →
          Verdict format piece (some (.error (.malformed failure.cause (failure.column line))))

theorem isCut_iff :
    isCut piece = true ↔ piece.length = maxLineBytes ∧ piece.getLast? ≠ some lineFeed := by
  simp [isCut]

theorem trimLine_append {line ending : List Char}
    (ends : ∀ character ∈ ending, isLineEnding character = true)
    (trimmed : ∀ character, line.getLast? = some character → isLineEnding character = false) :
    trimLine (line ++ ending) = line := by
  have skipped : ∀ character ∈ ending.reverse, isLineEnding character = true := by
    intro character member
    exact ends character (List.mem_reverse.mp member)
  rw [trimLine, List.reverse_append, List.dropWhile_append_of_pos skipped]
  cases last : line.reverse with
  | nil =>
    rw [List.reverse_eq_nil_iff] at last
    rw [last]
    rfl
  | cons character front =>
    have isLast : line.getLast? = some character := by
      rw [← List.head?_reverse, last, List.head?_cons]
    rw [List.dropWhile_cons_of_neg (by simp [trimmed character isLast]), ← last,
      List.reverse_reverse]

private theorem exists_ending (text : List Char) :
    ∃ ending, text = trimLine text ++ ending ∧
      ∀ character ∈ ending, isLineEnding character = true := by
  refine ⟨(text.reverse.takeWhile isLineEnding).reverse, ?_, ?_⟩
  · rw [trimLine, ← List.reverse_append, List.takeWhile_append_dropWhile, List.reverse_reverse]
  · intro character member
    have all := List.all_eq_true.mp (List.all_takeWhile (p := isLineEnding) (l := text.reverse))
    exact all character (List.mem_reverse.mp member)

private theorem hasLine_trimLine (text : List Char) :
    HasLine (Utf8.encode text) (trimLine text) where
  spelled := by
    obtain ⟨ending, parts, ends⟩ := exists_ending text
    exact ⟨ending, congrArg Utf8.encode parts.symm, ends⟩
  trimmed character last := by
    have front := List.head?_dropWhile_not isLineEnding text.reverse
    rw [trimLine, List.getLast?_reverse] at last
    rwa [last] at front

theorem HasLine.decode {line : List Char} (hasLine : HasLine piece line) :
    ∃ text, Utf8.decode piece = .ok text ∧ trimLine text = line := by
  obtain ⟨⟨ending, spelled, ends⟩, trimmed⟩ := hasLine
  exact ⟨line ++ ending, Utf8.decode_eq_ok_iff.mpr spelled, trimLine_append ends trimmed⟩

theorem isLineEnding_iff {character : Char} :
    isLineEnding character = true ↔ character = '\n' ∨ character = '\r' := by
  simp [isLineEnding]

private theorem exists_endings (only : ∀ byte ∈ piece, byte = 10 ∨ byte = 13) :
    ∃ text, Utf8.encode text = piece ∧ ∀ character ∈ text, isLineEnding character = true := by
  induction piece with
  | nil => exact ⟨[], rfl, fun _ member => by cases member⟩
  | cons byte rest ih =>
    obtain ⟨text, rfl, ends⟩ := ih fun other member => only other (List.mem_cons_of_mem _ member)
    rcases only byte List.mem_cons_self with rfl | rfl
    · exact ⟨'\n' :: text, rfl, List.forall_mem_cons.mpr ⟨rfl, ends⟩⟩
    · exact ⟨'\r' :: text, rfl, List.forall_mem_cons.mpr ⟨rfl, ends⟩⟩

private theorem endings_of_encode {text : List Char}
    (ends : ∀ character ∈ text, isLineEnding character = true) :
    ∀ byte ∈ Utf8.encode text, byte = 10 ∨ byte = 13 := by
  intro byte member
  obtain ⟨character, inside, spells⟩ := List.mem_flatMap.mp member
  rcases isLineEnding_iff.mp (ends character inside) with rfl | rfl
  · exact .inl (List.mem_singleton.mp spells)
  · exact .inr (List.mem_singleton.mp spells)

private theorem trimLine_eq_nil_iff {text : List Char} :
    trimLine text = [] ↔ ∀ character ∈ text, isLineEnding character = true := by
  constructor
  · intro empty
    obtain ⟨ending, parts, ends⟩ := exists_ending text
    rw [empty, List.nil_append] at parts
    rwa [parts]
  · intro ends
    exact @trimLine_append [] text ends (by simp)

private theorem verdict_readPiece (format : Format α) (piece : List UInt8) :
    Verdict format piece (readPiece format piece) := by
  cases decoded : Utf8.decode piece with
  | error fault =>
    have unspelled : ∀ text, Utf8.encode text ≠ piece := by
      intro text spelled
      rw [Utf8.decode_eq_ok_iff.mpr spelled] at decoded
      cases decoded
    simp only [readPiece, decoded]
    exact .notText fault unspelled decoded
  | ok text =>
    have spelled := Utf8.decode_eq_ok_iff.mp decoded
    simp only [readPiece, decoded]
    by_cases cut : isCut piece = true
    · obtain ⟨full, unended⟩ := isCut_iff.mp cut
      rw [if_pos cut]
      exact .tooLong text spelled full unended
    · have whole := mt isCut_iff.mpr cut
      have hasLine := hasLine_trimLine text
      rw [spelled] at hasLine
      rw [if_neg cut]
      by_cases empty : trimLine text = []
      · rw [if_pos (List.isEmpty_iff.mpr empty)]
        have only := endings_of_encode (trimLine_eq_nil_iff.mp empty)
        rw [spelled] at only
        exact .blank whole only
      · rw [if_neg (mt List.isEmpty_iff.mp empty)]
        cases read : decodeLine format (trimLine text) with
        | ok content => exact .message _ content whole hasLine empty read
        | error failure => exact .malformed _ failure whole hasLine empty read

private theorem Verdict.readPiece_eq {outcome : Option (Except ReadError α)}
    (verdict : Verdict format piece outcome) : readPiece format piece = outcome := by
  cases verdict with
  | notText fault _ decoded => simp only [readPiece, decoded]
  | tooLong text spelled full unended =>
    have cut : isCut piece = true := isCut_iff.mpr ⟨full, unended⟩
    simp only [readPiece, Utf8.decode_eq_ok_iff.mpr spelled, cut, if_true]
  | blank whole only =>
    obtain ⟨text, spelled, ends⟩ := exists_endings only
    have empty := trimLine_eq_nil_iff.mpr ends
    simp only [readPiece, Utf8.decode_eq_ok_iff.mpr spelled, if_neg (mt isCut_iff.mp whole), empty,
      List.isEmpty_nil, if_true]
  | message line content whole hasLine notEmpty read =>
    obtain ⟨text, decoded, rfl⟩ := hasLine.decode
    simp only [readPiece, decoded, if_neg (mt isCut_iff.mp whole),
      if_neg (mt List.isEmpty_iff.mp notEmpty), read]
  | malformed line failure whole hasLine notEmpty read =>
    obtain ⟨text, decoded, rfl⟩ := hasLine.decode
    simp only [readPiece, decoded, if_neg (mt isCut_iff.mp whole),
      if_neg (mt List.isEmpty_iff.mp notEmpty), read]

theorem readPiece_eq_iff {outcome : Option (Except ReadError α)} :
    readPiece format piece = outcome ↔ Verdict format piece outcome :=
  ⟨fun same => same ▸ verdict_readPiece format piece, Verdict.readPiece_eq⟩

/-! ## Calls -/

/-- The bytes that so many calls of a reader leave. -/
def restAfter (format : Format α) : Nat → List UInt8 → List UInt8
  | 0, bytes => bytes
  | calls + 1, bytes => restAfter format calls (readNext format bytes).2

private theorem restAfter_nil (calls : Nat) : restAfter format calls [] = [] := by
  induction calls with
  | zero => rfl
  | succ fewer ih => rw [restAfter, readNext, ih]

private theorem takeLine_joined (byte : UInt8) (rest : List UInt8) :
    (takeLine (byte :: rest)).1 ++ (takeLine (byte :: rest)).2 = byte :: rest := by
  have joined := flatten_pieces (byte :: rest)
  rwa [pieces, List.flatten_cons, flatten_pieces] at joined

/-- One call takes the pieces up to the first that has an outcome, or all that are left. -/
theorem readNext_pieces (format : Format α) (bytes : List UInt8) :
    ∃ taken, pieces bytes = taken ++ pieces (readNext format bytes).2 ∧
      bytes = taken.flatten ++ (readNext format bytes).2 ∧
      taken.filterMap (readPiece format) = (readNext format bytes).1.toList ∧
      ((readNext format bytes).1 = none → (readNext format bytes).2 = []) := by
  fun_induction readNext format bytes with
  | case1 => exact ⟨[], rfl, rfl, rfl, fun _ => rfl⟩
  | case2 byte rest outcome read =>
    refine ⟨[(takeLine (byte :: rest)).1], ?_, ?_, ?_, ?_⟩
    · rw [pieces]
      rfl
    · simpa using (takeLine_joined byte rest).symm
    · simp [read]
    · intro none
      cases none
  | case3 byte rest silent ih =>
    obtain ⟨taken, parts, joined, outcomes, ended⟩ := ih
    refine ⟨(takeLine (byte :: rest)).1 :: taken, ?_, ?_, ?_, ended⟩
    · rw [pieces, List.cons_append, ← parts]
    · rw [List.flatten_cons, List.append_assoc, ← joined, takeLine_joined]
    · rw [List.filterMap_cons, silent]
      exact outcomes

/-- How far so many calls have come that took these pieces: what they left, and what they gave,
which is the end of the stream as soon as a call finds no outcome. -/
structure Progress (format : Format α) (bytes : List UInt8) (calls : Nat)
    (taken : List (List UInt8)) : Prop where
  ahead : pieces bytes = taken ++ pieces (restAfter format calls bytes)
  joined : bytes = taken.flatten ++ restAfter format calls bytes
  results : readTimes format calls bytes =
    (taken.filterMap (readPiece format)).map some ++
      List.replicate (calls - (taken.filterMap (readPiece format)).length) none
  ended : (taken.filterMap (readPiece format)).length < calls → restAfter format calls bytes = []

private theorem exists_progress (format : Format α) (calls : Nat) (bytes : List UInt8) :
    ∃ taken, Progress format bytes calls taken := by
  induction calls generalizing bytes with
  | zero =>
    refine ⟨[], ?_⟩
    constructor
    · rfl
    · rfl
    · rfl
    · intro fewer
      cases fewer
  | succ fewer ih =>
    obtain ⟨taken, ahead, joined, outcomes, ended⟩ := readNext_pieces format bytes
    cases given : (readNext format bytes).1 with
    | none =>
      -- The stream is over, and every further call finds it so.
      have nothing := ended given
      have emptied : restAfter format (fewer + 1) bytes = [] := by
        rw [restAfter, nothing, restAfter_nil]
      rw [given, Option.toList_none] at outcomes
      refine ⟨taken, ?_⟩
      constructor
      · rw [emptied, ← nothing]
        exact ahead
      · rw [emptied, ← nothing]
        exact joined
      · rw [outcomes, readTimes, given, nothing, readTimes_nil]
        rfl
      · exact fun _ => emptied
    | some outcome =>
      obtain ⟨later, progress⟩ := ih (readNext format bytes).2
      rw [given, Option.toList_some] at outcomes
      have all : (taken ++ later).filterMap (readPiece format) =
          outcome :: later.filterMap (readPiece format) := by
        rw [List.filterMap_append, outcomes, List.singleton_append]
      refine ⟨taken ++ later, ?_⟩
      constructor
      · rw [restAfter, List.append_assoc, ← progress.ahead]
        exact ahead
      · rw [restAfter, List.flatten_append, List.append_assoc, ← progress.joined]
        exact joined
      · rw [all, readTimes, given, progress.results, List.length_cons, Nat.add_sub_add_right]
        rfl
      · intro short
        rw [all, List.length_cons] at short
        exact progress.ended (Nat.lt_of_succ_lt_succ short)

theorem readAll_nil (format : Format α) : readAll format [] = [] := by
  rw [readAll, pieces]
  rfl

section Results

variable {bytes : List UInt8} {calls : Nat} {taken : List (List UInt8)}

private theorem Progress.readAll_eq (progress : Progress format bytes calls taken) :
    readAll format bytes =
      taken.filterMap (readPiece format) ++ readAll format (restAfter format calls bytes) := by
  rw [readAll, progress.ahead, List.filterMap_append, readAll]

/-- As many calls as there are outcomes have given all of them. -/
theorem Progress.taken_all (progress : Progress format bytes calls taken)
    (enough : (readAll format bytes).length ≤ calls) :
    taken.filterMap (readPiece format) = readAll format bytes := by
  have all := progress.readAll_eq
  rcases Nat.lt_or_ge (taken.filterMap (readPiece format)).length calls with short | full
  · rw [progress.ended short, readAll_nil, List.append_nil] at all
    exact all.symm
  · have lengths := congrArg List.length all
    rw [List.length_append] at lengths
    have nothing : readAll format (restAfter format calls bytes) = [] :=
      List.length_eq_zero_iff.mp (by omega)
    rw [nothing, List.append_nil] at all
    exact all.symm

end Results

theorem readTimes_readAll (format : Format α) (bytes : List UInt8) (further : Nat) :
    readTimes format ((readAll format bytes).length + further) bytes =
      (readAll format bytes).map some ++ List.replicate further none := by
  obtain ⟨taken, progress⟩ :=
    exists_progress format ((readAll format bytes).length + further) bytes
  have all := progress.taken_all (Nat.le_add_right _ further)
  rw [progress.results, all, Nat.add_sub_cancel_left]

private theorem restAfter_readAll (format : Format α) (bytes : List UInt8) :
    restAfter format ((readAll format bytes).length + 1) bytes = [] := by
  obtain ⟨taken, progress⟩ := exists_progress format ((readAll format bytes).length + 1) bytes
  apply progress.ended
  rw [progress.taken_all (Nat.le_succ _)]
  exact Nat.lt_succ_self _

theorem readAll_piece (format : Format α) (isPiece : IsPiece piece) (rest : List UInt8) :
    readAll format (piece ++ rest) = (readPiece format piece).toList ++ readAll format rest := by
  rw [readAll, pieces_piece isPiece, List.filterMap_cons, readAll]
  cases readPiece format piece <;> rfl

private theorem readAll_of_isPiece (format : Format α) (isPiece : IsPiece piece) :
    readAll format piece = (readPiece format piece).toList := by
  have alone := readAll_piece format isPiece []
  rwa [List.append_nil, readAll_nil, List.append_nil] at alone

private theorem readAll_append (format : Format α) {first : List UInt8}
    (ended : first = [] ∨ first.getLast? = some lineFeed) (second : List UInt8) :
    readAll format (first ++ second) = readAll format first ++ readAll format second := by
  rw [readAll, pieces_append ended, List.filterMap_append, readAll, readAll]

end Outcomes

/-- Reading this stream takes it apart without a gap: the calls give the outcomes of its pieces
one after the other and then its end, and at any time what is left is what they have not taken. -/
structure Format.Partitions {α : Type} (format : Format α) (bytes : List UInt8) : Prop where
  chunks : ∀ piece ∈ pieces bytes, IsChunk piece
  finished : ∀ piece ∈ (pieces bytes).dropLast,
    piece.getLast? = some lineFeed ∨ piece.length = maxLineBytes
  joined : (pieces bytes).flatten = bytes
  progress : ∀ calls, ∃ taken, Progress format bytes calls taken
  results : ∀ further,
    readTimes format ((readAll format bytes).length + further) bytes =
      (readAll format bytes).map some ++ List.replicate further none
  ended : restAfter format ((readAll format bytes).length + 1) bytes = []

/-- Every stream is read piece by piece, each piece has the outcome that its own bytes decide, and
what comes behind the end of a line is read as a stream by itself. -/
theorem reading_partitions {α : Type} (format : Format α) :
    (∀ bytes, format.Partitions bytes) ∧
      (∀ piece outcome, readPiece format piece = outcome ↔ Verdict format piece outcome) ∧
      ∀ first second, (first = [] ∨ first.getLast? = some lineFeed) →
        readAll format (first ++ second) = readAll format first ++ readAll format second := by
  refine ⟨?partitions, fun _ _ => readPiece_eq_iff, fun _ second ended => ?_⟩
  case partitions =>
    intro bytes
    constructor
    · exact fun _ => isChunk_of_mem_pieces
    · intro piece member
      have complete := isComplete_of_mem_dropLast member
      simpa [isComplete] using complete
    · exact flatten_pieces bytes
    · exact fun calls => exists_progress format calls bytes
    · exact readTimes_readAll format bytes
    · exact restAfter_readAll format bytes
  exact readAll_append format ended second

/-- An error, and behind it a blank line and a message. -/
theorem reading_partitions_broken :
    readAll inboundFormat
        ([0xFF, lineFeed] ++ (blankLine 1 ++ encodeLine inboundFormat ⟨"a", "b"⟩)) =
      [.error (.notText ⟨0, some 1⟩), .ok ⟨"a", "b"⟩] := by
  have broken : IsPiece [0xFF, lineFeed] :=
    ⟨⟨[0xFF], lineFeed, rfl, by decide, .inl rfl⟩, by decide⟩
  have blank : IsPiece (blankLine 1) := (isLine_blankLine 1).isPiece (by decide)
  have message : IsPiece (encodeLine inboundFormat ⟨"a", "b"⟩) :=
    (isLine_encodeLine _).isPiece (by decide)
  rw [(reading_partitions inboundFormat).2.2 _ _ (.inr rfl), readAll_of_isPiece _ broken,
    readAll_piece _ blank, readPiece_blankLine, readAll_of_isPiece _ message,
    readPiece_encodeLine inboundFormat_lawful]
  rfl

end ChatHub.Wire
