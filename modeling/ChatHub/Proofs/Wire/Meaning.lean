import ChatHub.Net.Tcp
import ChatHub.Proofs.Wire.Partition
import ChatHub.Proofs.Wire.Scanning
/-!
Which lines are messages, and what the hub makes of them. A reader takes a line for a message just
if the grammar does, and in an object only what its fields say counts: their order, how they are
spelled and whatever else stands beside them are the writer's own business. Main statement:
`lines_are_messages`.
-/

set_option autoImplicit false

namespace ChatHub.Wire

open Json

/-! ## Objects written otherwise -/

/-- Ways to write the members of an object otherwise that say the same. -/
inductive Format.Rewritten {α : Type} (format : Format α) : List Member → List Member → Prop where
  /-- The members may come in any order. -/
  | moved {members others : List Member} :
      members.Perm others → format.Rewritten members others
  /-- A string may be spelled in any way. -/
  | respelled {name quoted spelling content : List Char} {members : List Member} :
      Spells quoted content [] → Spells spelling content [] →
      format.Rewritten (⟨name, '"' :: quoted⟩ :: members) (⟨name, '"' :: spelling⟩ :: members)
  /-- A member that is no field may be there or not, with any value. -/
  | unknown {member : Member} {members : List Member} :
      format.field? member.name = none → format.Rewritten (member :: members) members
  | symm {members others : List Member} :
      format.Rewritten members others → format.Rewritten others members
  | trans {members others further : List Member} :
      format.Rewritten members others → format.Rewritten others further →
      format.Rewritten members further

section Objects

variable {α : Type} {format : Format α} {members others : List Member}

private theorem named_perm (same : members.Perm others) (name : String) :
    (named members name).Perm (named others name) :=
  same.filter _

private theorem once_cons_self {name value : String} {quoted : List Char} :
    Once (⟨name.toList, '"' :: quoted⟩ :: members) name value ↔
      named members name = [] ∧ Spells quoted value.toList [] := by
  have itself : named (⟨name.toList, '"' :: quoted⟩ :: members) name =
      ⟨name.toList, '"' :: quoted⟩ :: named members name := named_cons_self rfl
  constructor
  · rintro ⟨spelling, alone, spelled⟩
    rw [itself] at alone
    obtain ⟨same, noOther⟩ := List.cons.inj alone
    cases same
    exact ⟨noOther, spelled⟩
  · rintro ⟨noOther, spelled⟩
    exact ⟨quoted, by rw [itself, noOther], spelled⟩

theorem Once.perm {name value : String} (same : members.Perm others)
    (once : Once members name value) : Once others name value := by
  obtain ⟨quoted, alone, spelled⟩ := once
  have left := named_perm same name
  rw [alone] at left
  exact ⟨quoted, List.perm_singleton.mp left.symm, spelled⟩

/-- However it is written, an object has the same fields. -/
theorem Format.Rewritten.once_iff (rewritten : format.Rewritten members others) {field : Field}
    (known : field ∈ format.fields) (value : String) :
    Once members field.name value ↔ Once others field.name value := by
  induction rewritten with
  | moved same => exact ⟨Once.perm same, Once.perm same.symm⟩
  | @respelled name quoted spelling content members spelled again =>
    have agree : Spells quoted value.toList [] ↔ Spells spelling value.toList [] := by
      constructor
      · intro other
        rwa [← (spelled.unique other).1]
      · intro other
        rwa [← (again.unique other).1]
    by_cases same : name = field.name.toList
    · subst same
      rw [once_cons_self, once_cons_self, agree]
    · rw [once_cons_of_ne same, once_cons_of_ne same]
  | unknown isOther =>
    refine once_cons_of_ne fun same => ?_
    rw [same, Format.field?_name known] at isOther
    cases isOther
  | symm _ ih => exact ih.symm
  | trans _ _ first second => exact first.trans second

/-- A line with an object on it, and nothing else but white space. -/
def IsObject (line : List Char) (members : List Member) : Prop :=
  ∃ before inside behind, line = before ++ '\x7b' :: inside ∧ IsBlanks before ∧
    Members true inside members behind ∧ IsBlanks behind

theorem IsObject.isMessage_iff {line : List Char} (isObject : IsObject line members) {message : α} :
    format.IsMessage line message ↔
      ∀ field ∈ format.fields, Once members field.name (format.value message field) := by
  obtain ⟨before, inside, behind, rfl, areBlanks, areMembers, nothing⟩ := isObject
  constructor
  · rintro ⟨rest, records, _⟩
    generalize whole : before ++ '\x7b' :: inside = line at records
    have front := congrArg skipBlank whole
    rw [skipBlank_append areBlanks, skipBlank_cons rfl] at front
    cases records with
    | object alsoBlanks alsoMembers once =>
      rw [skipBlank_append alsoBlanks, skipBlank_cons rfl] at front
      obtain ⟨-, rfl⟩ := List.cons.inj front
      rwa [(areMembers.unique alsoMembers).1]
    | list alsoBlanks =>
      rw [skipBlank_append alsoBlanks, skipBlank_cons rfl] at front
      cases front
  · intro once
    exact ⟨behind, .object areBlanks areMembers once, nothing⟩

/-- An object that is written otherwise is the same message, or no message either. -/
theorem Format.Rewritten.isMessage_iff {line other : List Char}
    (rewritten : format.Rewritten members others) (isObject : IsObject line members)
    (alsoObject : IsObject other others) {message : α} :
    format.IsMessage line message ↔ format.IsMessage other message := by
  rw [isObject.isMessage_iff, alsoObject.isMessage_iff]
  exact forall_congr' fun field => forall_congr' fun known => rewritten.once_iff known _

end Objects

/-! ## Lines -/

/-- A text that can stand on a line. -/
structure FitsLine (text : List Char) : Prop where
  noFeed : '\n' ∉ text
  fits : (Utf8.encode text).length < maxLineBytes

def lineBytes (text : List Char) : List UInt8 :=
  Utf8.encode text ++ [lineFeed]

section Reading

variable {α : Type} {format : Format α} {message : α} {text : List Char}

private theorem not_isMessage_nil : ¬format.IsMessage [] message := by
  rintro ⟨behind, records, _⟩
  generalize whole : [] = text at records
  cases records with
  | object => exact absurd whole.symm (by simp)
  | list => exact absurd whole.symm (by simp)

private theorem readPiece_eq_message_iff (exact : format.Exact) {piece : List UInt8}
    (decoded : Utf8.decode piece = .ok text) (whole : isCut piece = false) :
    readPiece format piece = some (.ok message) ↔ format.IsMessage (trimLine text) message := by
  by_cases empty : trimLine text = []
  · rw [empty]
    simp [readPiece, decoded, whole, empty, not_isMessage_nil]
  · rw [readPiece_text decoded whole empty, ← decodeLine_eq_ok_iff exact]
    cases decodeLine format (trimLine text) with
    | ok content =>
      constructor <;> (rintro ⟨⟩; rfl)
    | error failure =>
      constructor <;> rintro ⟨⟩

theorem readPiece_ne_none {piece : List UInt8} (decoded : Utf8.decode piece = .ok text)
    (whole : isCut piece = false) (notEmpty : trimLine text ≠ []) :
    readPiece format piece ≠ none := by
  rw [readPiece_text decoded whole notEmpty]
  exact Option.some_ne_none _

private theorem readNext_length_lt {bytes : List UInt8} {outcome : Except ReadError α}
    {rest : List UInt8}
    (read : readNext format bytes = (some outcome, rest)) : rest.length < bytes.length := by
  fun_induction readNext format bytes with
  | case1 => cases read
  | case2 byte behind =>
    cases read
    exact takeLine_length_lt byte behind
  | case3 byte behind _ ih => exact Nat.lt_trans (ih read) (takeLine_length_lt byte behind)

theorem FitsLine.isPiece (fitsLine : FitsLine text) : IsPiece (lineBytes text) :=
  (isLine_encode fitsLine.noFeed).isPiece (by
    have := fitsLine.fits
    simp only [List.length_append, List.length_singleton]
    omega)

theorem FitsLine.isCut_line (fitsLine : FitsLine text) : isCut (lineBytes text) = false :=
  Wire.isCut_line (isLine_encode fitsLine.noFeed)

private theorem trimLine_lineFeed (text : List Char) :
    trimLine (text ++ ['\n']) = trimLine text := by
  have ending : isLineEnding '\n' = true := rfl
  simp [trimLine, ending]

theorem FitsLine.readPiece_line (exact : format.Exact) (fitsLine : FitsLine text) :
    readPiece format (lineBytes text) = some (.ok message) ↔
      format.IsMessage (trimLine text) message := by
  rw [← trimLine_lineFeed]
  exact readPiece_eq_message_iff exact (decode_line text) fitsLine.isCut_line

theorem FitsLine.readPiece_last (exact : format.Exact) (fitsLine : FitsLine text) :
    readPiece format (Utf8.encode text) = some (.ok message) ↔
      format.IsMessage (trimLine text) message :=
  readPiece_eq_message_iff exact (Utf8.decode_encode text) (isCut_of_lt fitsLine.fits)

theorem FitsLine.readPiece_ne_none (fitsLine : FitsLine text) (notEmpty : trimLine text ≠ []) :
    readPiece format (lineBytes text) ≠ none := by
  rw [← trimLine_lineFeed] at notEmpty
  exact Wire.readPiece_ne_none (decode_line text) fitsLine.isCut_line notEmpty

/-- A line gives a message with any bytes behind it just if its text is one. -/
theorem FitsLine.readNext_line (exact : format.Exact) (fitsLine : FitsLine text)
    (rest : List UInt8) :
    readNext format (lineBytes text ++ rest) = (some (.ok message), rest) ↔
      format.IsMessage (trimLine text) message := by
  rw [← fitsLine.readPiece_line exact, readNext_piece format fitsLine.isPiece]
  cases readPiece format (lineBytes text) with
  | some outcome => simp
  | none =>
    simp only [reduceCtorEq, iff_false]
    intro read
    exact absurd (readNext_length_lt read) (Nat.lt_irrefl _)

/-- So does a line that the stream ends on. -/
theorem FitsLine.readNext_last (exact : format.Exact) (fitsLine : FitsLine text) :
    readNext format (Utf8.encode text) = (some (.ok message), []) ↔
      format.IsMessage (trimLine text) message := by
  rw [← fitsLine.readPiece_last exact]
  have noFeed := Utf8.lineFeed_not_mem_encode fitsLine.noFeed
  have fits := fitsLine.fits
  generalize Utf8.encode text = bytes at noFeed fits
  cases bytes with
  | nil => simp [readNext, readPiece, Utf8.decode, Utf8.decodeFrom, isCut, trimLine, maxLineBytes]
  | cons byte behind =>
    have whole : takeLine (byte :: behind) = (byte :: behind, []) :=
      takeLineFrom_open noFeed [] fits
    rw [readNext, whole]
    cases readPiece format (byte :: behind) with
    | some outcome => simp
    | none => simp [readNext]

end Reading

/-- A reader of this kind of message takes a line for a message just if the grammar does, behind
whatever the stream has on its other lines. -/
def Format.ReadsMessages {α : Type} (format : Format α) : Prop :=
  ∀ (text : List Char) (message : α), FitsLine text →
    (∀ rest, readNext format (lineBytes text ++ rest) = (some (.ok message), rest) ↔
      format.IsMessage (trimLine text) message) ∧
    (readNext format (Utf8.encode text) = (some (.ok message), []) ↔
      format.IsMessage (trimLine text) message)

private theorem Format.Exact.readsMessages {α : Type} {format : Format α} (exact : format.Exact) :
    format.ReadsMessages :=
  fun _ _ fitsLine => ⟨fitsLine.readNext_line exact, fitsLine.readNext_last exact⟩

/-! ## Publishing -/

section Publishing

variable {peer : TcpPeer} {text other : List Char} (timestamp : String) (hub : Hub)

theorem receive_piece (fresh : peer.buffer = {}) {piece : List UInt8} (isPiece : IsPiece piece) :
    peer.receive timestamp piece hub = TcpPeer.takePiece timestamp (peer, hub) piece := by
  have fed := LineBuffer.feed_piece isPiece []
  rw [List.append_nil] at fed
  obtain ⟨connection, buffer, isOpen⟩ := peer
  cases fresh
  cases isOpen with
  | true => simp [TcpPeer.receive, fed, LineBuffer.feed]
  | false => simp [TcpPeer.receive, TcpPeer.takePiece]

/-- Two pieces that hold the same message, or are both refused, are the same to the hub. -/
theorem takePiece_eq {first second : List UInt8}
    (same : ∀ message, readPiece inboundFormat first = some (.ok message) ↔
      readPiece inboundFormat second = some (.ok message))
    (held : readPiece inboundFormat first ≠ none)
    (alsoHeld : readPiece inboundFormat second ≠ none) :
    TcpPeer.takePiece timestamp (peer, hub) first =
      TcpPeer.takePiece timestamp (peer, hub) second := by
  cases read : readPiece inboundFormat first with
  | none => exact absurd read held
  | some outcome =>
    cases outcome with
    | ok message => simp only [TcpPeer.takePiece, read, (same message).mp read]
    | error cause =>
      cases again : readPiece inboundFormat second with
      | none => exact absurd again alsoHeld
      | some outcome =>
        cases outcome with
        | ok message =>
          have first := (same message).mpr again
          rw [read] at first
          cases first
        | error other => simp only [TcpPeer.takePiece, read, again]

/-- Takes bytes and then the end of the input. -/
def takeLast (peer : TcpPeer) (timestamp : String) (bytes : List UInt8) (hub : Hub) :
    TcpPeer × Hub :=
  let (taken, hub) := peer.receive timestamp bytes hub
  taken.finish timestamp hub

/-- What the input ends with is a piece of its own, and the connection ends behind it. -/
theorem takeLast_eq (fresh : peer.buffer = {}) {bytes : List UInt8} (noFeed : lineFeed ∉ bytes)
    (fits : bytes.length < maxLineBytes) (notEmpty : bytes ≠ []) :
    takeLast peer timestamp bytes hub =
      let (taken, hub) := TcpPeer.takePiece timestamp (peer, hub) bytes
      if taken.isOpen then taken.close hub else (taken, hub) := by
  obtain ⟨connection, buffer, isOpen⟩ := peer
  cases fresh
  cases isOpen with
  | false => simp [takeLast, TcpPeer.receive, TcpPeer.finish, TcpPeer.takePiece]
  | true =>
    have fed := LineBuffer.feed_open noFeed {} (by simpa using fits)
    have left : LineBuffer.finish ⟨bytes.reverse ++ [], 0 + bytes.length⟩ = some bytes := by
      simp [LineBuffer.finish, notEmpty]
    simp only [takeLast, TcpPeer.receive, if_true, fed, List.foldl_nil, TcpPeer.finish, left,
      Option.toList_some, List.foldl_cons, TcpPeer.takePiece]
    cases readPiece inboundFormat bytes with
    | none => rfl
    | some outcome => cases outcome <;> rfl

end Publishing

/-- What a peer puts on a line counts for what it says. The hub publishes the sender and the text
of a message with the time that its own clock has, and takes an object that is written otherwise
for the same, be it a message or not. -/
structure PublishesContent (peer : TcpPeer) (timestamp : String) (hub : Hub) : Prop where
  message : ∀ {text message}, FitsLine text → inboundFormat.IsMessage (trimLine text) message →
    peer.isOpen = true →
    peer.receive timestamp (lineBytes text) hub =
        (peer, (hub.publish peer.connection message timestamp).2) ∧
      takeLast peer timestamp (Utf8.encode text) hub =
        peer.close (hub.publish peer.connection message timestamp).2
  rewritten : ∀ {text other members others}, FitsLine text → FitsLine other →
    IsObject (trimLine text) members → IsObject (trimLine other) others →
    inboundFormat.Rewritten members others →
    peer.receive timestamp (lineBytes text) hub = peer.receive timestamp (lineBytes other) hub ∧
      takeLast peer timestamp (Utf8.encode text) hub =
        takeLast peer timestamp (Utf8.encode other) hub

theorem FitsLine.takeLast_eq {text : List Char} (fitsLine : FitsLine text) {peer : TcpPeer}
    (fresh : peer.buffer = {}) (notEmpty : trimLine text ≠ []) (timestamp : String) (hub : Hub) :
    takeLast peer timestamp (Utf8.encode text) hub =
      let (taken, hub) := TcpPeer.takePiece timestamp (peer, hub) (Utf8.encode text)
      if taken.isOpen then taken.close hub else (taken, hub) := by
  refine Wire.takeLast_eq timestamp hub fresh (Utf8.lineFeed_not_mem_encode fitsLine.noFeed)
    fitsLine.fits fun empty => notEmpty ?_
  have noText : text = [] := Utf8.encode_injective (empty.trans (show [] = Utf8.encode [] from rfl))
  rw [noText]
  rfl

theorem IsObject.ne_nil {line : List Char} {members : List Member}
    (isObject : IsObject line members) : line ≠ [] := by
  obtain ⟨before, inside, _, rfl, _⟩ := isObject
  simp

private theorem publishesContent {peer : TcpPeer} (fresh : peer.buffer = {}) (timestamp : String)
    (hub : Hub) : PublishesContent peer timestamp hub where
  message := by
    intro text message fitsLine isMessage isOpen
    have line := (fitsLine.readPiece_line inboundFormat_exact).mpr isMessage
    have last := (fitsLine.readPiece_last inboundFormat_exact).mpr isMessage
    have notEmpty : trimLine text ≠ [] := by
      intro empty
      rw [empty] at isMessage
      exact not_isMessage_nil isMessage
    constructor
    · rw [receive_piece timestamp hub fresh fitsLine.isPiece]
      simp only [TcpPeer.takePiece, isOpen, if_true, line]
    · rw [fitsLine.takeLast_eq fresh notEmpty]
      simp only [TcpPeer.takePiece, isOpen, if_true, last]
  rewritten := by
    intro text other members others fitsLine alsoFits isObject alsoObject rewritten
    have same : ∀ message, inboundFormat.IsMessage (trimLine text) message ↔
        inboundFormat.IsMessage (trimLine other) message :=
      fun _ => rewritten.isMessage_iff isObject alsoObject
    constructor
    · rw [receive_piece timestamp hub fresh fitsLine.isPiece,
        receive_piece timestamp hub fresh alsoFits.isPiece]
      refine takePiece_eq timestamp hub (fun message => ?_) ?_ ?_
      · rw [fitsLine.readPiece_line inboundFormat_exact,
          alsoFits.readPiece_line inboundFormat_exact, same]
      · exact fitsLine.readPiece_ne_none isObject.ne_nil
      · exact alsoFits.readPiece_ne_none alsoObject.ne_nil
    · rw [fitsLine.takeLast_eq fresh isObject.ne_nil, alsoFits.takeLast_eq fresh alsoObject.ne_nil]
      rw [takePiece_eq timestamp hub (fun message => ?_)
        (readPiece_ne_none (Utf8.decode_encode text) (isCut_of_lt fitsLine.fits) isObject.ne_nil)
        (readPiece_ne_none (Utf8.decode_encode other) (isCut_of_lt alsoFits.fits)
          alsoObject.ne_nil)]
      rw [fitsLine.readPiece_last inboundFormat_exact,
        alsoFits.readPiece_last inboundFormat_exact, same]

/-- Lines are messages by the grammar and by nothing else, and what the hub publishes of an object
does not depend on how it is written. -/
theorem lines_are_messages :
    inboundFormat.ReadsMessages ∧ stampedFormat.ReadsMessages ∧
      ∀ peer : TcpPeer, peer.buffer = {} →
        ∀ timestamp hub, PublishesContent peer timestamp hub :=
  ⟨inboundFormat_exact.readsMessages, stampedFormat_exact.readsMessages,
    fun _ fresh => publishesContent fresh⟩

private theorem spells_encode (text rest : List Char) :
    Spells (text.flatMap Quoted.encodeChar ++ '"' :: rest) text rest :=
  Quoted.scan_eq_ok_iff.mp (Quoted.scan_encode text rest)

theorem derives_encode (value rest : List Char) :
    Derives .value (Quoted.encode value ++ rest) rest := by
  simpa [Quoted.encode] using Derives.string (spells_encode value rest).closes

theorem isMember_encode (name : List Char) {value rest : List Char}
    (derives : Derives .value (value ++ rest) rest) :
    IsMember (Quoted.encode name ++ ':' :: (value ++ rest)) ⟨name, value⟩ rest := by
  have named := spells_encode name (':' :: (value ++ rest))
  have member := @IsMember.mk _ name [] [] value rest named isBlanks_nil isBlanks_nil derives
  simpa [Quoted.encode] using member

/-- A message, and the same message with its fields swapped, a letter spelled by its number, and a
time of the peer's own. -/
def plainLine : List Char :=
  '\x7b' :: ([] ++ (Quoted.encode "sender".toList ++ ':' :: (Quoted.encode "a".toList ++
    ([','] ++ (Quoted.encode "message".toList ++ ':' :: (Quoted.encode "b".toList ++ ['\x7d']))))))

def otherLine : List Char :=
  '\x7b' :: ([' '] ++ (Quoted.encode "message".toList ++ ':' ::
    ("\"\\u0062\"".toList ++
      ([','] ++ (Quoted.encode "timestamp".toList ++ ':' :: (Quoted.encode "noon".toList ++
        ([','] ++ (Quoted.encode "sender".toList ++ ':' :: (Quoted.encode "a".toList ++
          ['\x7d'])))))))))

private theorem spells_b (rest : List Char) :
    Spells ('\\' :: 'u' :: '0' :: '0' :: '6' :: '2' :: '"' :: rest) ['b'] rest :=
  .escape (.unit (@SpellsUnit.mk _ _ _ _ 0 0 6 2 _ (.inl rfl) (.inl rfl) (.inl rfl) (.inl rfl)))
    .done

private theorem isObject_plainLine :
    IsObject plainLine [⟨"sender".toList, Quoted.encode "a".toList⟩,
      ⟨"message".toList, Quoted.encode "b".toList⟩] :=
  ⟨[], _, [], rfl, isBlanks_nil,
    .item (.first isBlanks_nil) (isMember_encode _ (derives_encode _ _))
      (.item (.later isBlanks_nil isBlanks_nil) (isMember_encode _ (derives_encode _ _))
        (@Members.close _ [] _ isBlanks_nil)), isBlanks_nil⟩

private theorem isObject_otherLine :
    IsObject otherLine [⟨"message".toList, "\"\\u0062\"".toList⟩,
      ⟨"timestamp".toList, Quoted.encode "noon".toList⟩,
      ⟨"sender".toList, Quoted.encode "a".toList⟩] :=
  ⟨[], _, [], rfl, isBlanks_nil,
    .item (.first (List.forall_mem_singleton.mpr rfl))
      (isMember_encode _ (.string (spells_b _).closes))
      (.item (.later isBlanks_nil isBlanks_nil) (isMember_encode _ (derives_encode _ _))
        (.item (.later isBlanks_nil isBlanks_nil) (isMember_encode _ (derives_encode _ _))
          (@Members.close _ [] _ isBlanks_nil))), isBlanks_nil⟩

theorem lines_are_messages_otherwise :
    readNext inboundFormat (lineBytes otherLine) = (some (.ok ⟨"a", "b"⟩), []) ∧
      ({ connection := 1 } : TcpPeer).receive "now" (lineBytes plainLine) {} =
        ({ connection := 1 } : TcpPeer).receive "now" (lineBytes otherLine) {} := by
  have plain : FitsLine plainLine := ⟨by decide, by decide⟩
  have other : FitsLine otherLine := ⟨by decide, by decide⟩
  have rewritten : inboundFormat.Rewritten
      [⟨"sender".toList, Quoted.encode "a".toList⟩, ⟨"message".toList, Quoted.encode "b".toList⟩]
      [⟨"message".toList, "\"\\u0062\"".toList⟩,
        ⟨"timestamp".toList, Quoted.encode "noon".toList⟩,
        ⟨"sender".toList, Quoted.encode "a".toList⟩] := by
    refine .trans (.moved (List.Perm.swap _ _ _)) ?_
    refine .trans (.respelled (spells_encode _ []) (spells_b [])) ?_
    exact .symm (.trans (.moved (List.Perm.swap _ _ _)) (.unknown (by decide)))
  have publishes := lines_are_messages.2.2 { connection := 1 } rfl "now" {}
  constructor
  · have decoded : decodeLine inboundFormat plainLine = .ok ⟨"a", "b"⟩ :=
      decodeLine_render inboundFormat_lawful ⟨"a", "b"⟩
    have said := (decodeLine_eq_ok_iff inboundFormat_exact).mp decoded
    rw [rewritten.isMessage_iff isObject_plainLine isObject_otherLine] at said
    have read := (lines_are_messages.1 otherLine ⟨"a", "b"⟩ other).1 []
    rw [List.append_nil] at read
    exact read.mpr said
  · exact (publishes.rewritten plain other isObject_plainLine isObject_otherLine rewritten).1

end ChatHub.Wire
