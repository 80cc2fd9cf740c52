import ChatHub.Net.SocketFrame
import ChatHub.Proofs.Text.Utf8
/-!
What is read from the bytes of a WebSocket stream. It does not matter how they are cut, and what a
client writes is read back up to the end of the stream. Main statements:
`FrameReader.receive_append` and `FrameReader.receive_carries`.
-/

set_option autoImplicit false

namespace ChatHub

/-! ## One frame at the front -/

/-- What a scan finds if more bytes stand behind those that it decided by. -/
def FrameScan.before (more : List UInt8) : FrameScan → FrameScan
  | .frame found rest => .frame found (rest ++ more)
  | .incomplete => .incomplete
  | .malformed => .malformed

namespace SocketFrame

private theorem scanPayload_append {final masked : Bool} {opcode length : Nat} {bytes : List UInt8}
    (decided : scanPayload final masked opcode length bytes ≠ .incomplete) (more : List UInt8) :
    scanPayload final masked opcode length (bytes ++ more) =
      (scanPayload final masked opcode length bytes).before more := by
  by_cases tooLong : longest < length
  · simp only [scanPayload, if_pos tooLong, FrameScan.before]
  · simp only [scanPayload, if_neg tooLong] at decided ⊢
    by_cases short : bytes.length < (if masked = true then 4 else 0) + length
    · exact absurd (if_pos short) decided
    · have still : ¬ (bytes ++ more).length < (if masked = true then 4 else 0) + length := by
        rw [List.length_append]
        omega
      rw [if_neg still, if_neg short]
      split
      · rfl
      · rename_i sound
        have isMasked : masked = true := by
          cases masked with
          | true => rfl
          | false => exact absurd rfl sound
        rw [if_pos isMasked] at short
        have key : 4 ≤ bytes.length := by omega
        have payload : length ≤ (bytes.drop 4).length := by
          rw [List.length_drop]
          omega
        simp only [FrameScan.before, List.take_append_of_le_length key,
          List.drop_append_of_le_length key, List.take_append_of_le_length payload,
          List.drop_append_of_le_length payload]

/-- More bytes change nothing about what is at the front. -/
theorem scan_append {bytes : List UInt8} (decided : scan bytes ≠ .incomplete)
    (more : List UInt8) : scan (bytes ++ more) = (scan bytes).before more := by
  match bytes with
  | [] | [_] => exact absurd rfl decided
  | first :: second :: rest =>
    simp only [scan, List.cons_append] at decided ⊢
    by_cases unsound : (decide (first.toNat / 16 % 8 ≠ 0) || !known (first.toNat % 16)) = true
    · rw [if_pos unsound, if_pos unsound, FrameScan.before]
    · rw [if_neg unsound] at decided
      rw [if_neg unsound, if_neg unsound]
      by_cases short : rest.length < lengthBytes (second.toNat % 128)
      · exact absurd (if_pos short) decided
      · have length : lengthBytes (second.toNat % 128) ≤ rest.length := Nat.not_lt.mp short
        have still : ¬ (rest ++ more).length < lengthBytes (second.toNat % 128) := by
          rw [List.length_append]
          omega
        rw [if_neg short] at decided
        rw [if_neg still, if_neg short, List.take_append_of_le_length length,
          List.drop_append_of_le_length length]
        exact scanPayload_append decided more

private theorem length_lt_of_scan {bytes rest : List UInt8} {frame : SocketFrame}
    (found : scan bytes = .frame frame rest) : rest.length < bytes.length := by
  match bytes with
  | [] | [_] => cases found
  | first :: second :: behind =>
    simp only [scan, scanPayload] at found
    repeat' split at found
    all_goals cases found
    all_goals
      simp only [List.length_drop, List.length_cons]
      omega

/-! ### What a client writes -/

private theorem number_snoc (bytes : List UInt8) (last : UInt8) :
    number (bytes ++ [last]) = 256 * number bytes + last.toNat :=
  List.foldl_append

private theorem length_bigEndian (count value : Nat) : (bigEndian count value).length = count := by
  induction count generalizing value with
  | zero => rfl
  | succ count ih => rw [bigEndian, List.length_append, ih, List.length_singleton]

private theorem number_bigEndian {count value : Nat} (fits : value < Nat.pow 256 count) :
    number (bigEndian count value) = value := by
  induction count generalizing value with
  | zero =>
    rw [Nat.lt_one_iff.mp fits]
    rfl
  | succ count ih =>
    have front : value / 256 < Nat.pow 256 count := Nat.div_lt_of_lt_mul (by
      rw [Nat.mul_comm]
      exact fits)
    have last : (UInt8.ofNat (value % 256)).toNat = value % 256 :=
      UInt8.toNat_ofNat_of_lt' (Nat.mod_lt _ (by decide))
    rw [bigEndian, number_snoc, ih front, last]
    exact Nat.div_add_mod value 256

private theorem length_unmask (key payload : List UInt8) :
    (unmask key payload).length = payload.length :=
  List.length_mapIdx

private theorem unmask_unmask (key payload : List UInt8) :
    unmask key (unmask key payload) = payload := by
  have same (byte mask : UInt8) : byte ^^^ mask ^^^ mask = byte := by
    rw [UInt8.xor_assoc, UInt8.xor_self, UInt8.xor_zero]
  apply List.ext_getElem
  · rw [length_unmask, length_unmask]
  · intro index _ _
    simp only [unmask, List.getElem_mapIdx, same]

structure Proper (frame : SocketFrame) : Prop where
  known : known frame.opcode = true
  fits : frame.payload.length ≤ longest
  control : isControl frame.opcode = true → frame.final = true ∧ frame.payload.length ≤ 125

private theorem firstByte_parts {frame : SocketFrame} (isKnown : known frame.opcode = true) :
    frame.firstByte.toNat % 16 = frame.opcode ∧
      frame.firstByte.toNat / 16 = if frame.final then 8 else 0 := by
  have small : frame.opcode ≤ 10 := by
    simp only [known, Bool.or_eq_true, Bool.and_eq_true, decide_eq_true_eq] at isKnown
    omega
  rw [firstByte, UInt8.toNat_ofNat']
  cases frame.final with
  | true =>
    simp only [if_true]
    omega
  | false =>
    simp only [Bool.false_eq_true, if_false]
    omega

private theorem scan_header {first : UInt8} {length : Nat}
    (isKnown : known (first.toNat % 16) = true)
    (plain : first.toNat / 16 % 8 = 0) (fits : length ≤ longest) (behind : List UInt8) :
    scan (first :: lengthField 128 length ++ behind) =
      scanPayload (decide (8 ≤ first.toNat / 16)) true (first.toNat % 16) length behind := by
  have sound : ¬ (decide (first.toNat / 16 % 8 ≠ 0) || !known (first.toNat % 16)) = true := by
    simp [isKnown, plain]
  have scanned (second : UInt8) (field : List UInt8)
      (isMasked : 128 ≤ second.toNat)
      (wide : field.length = lengthBytes (second.toNat % 128))
      (means : (if second.toNat % 128 < 126 then second.toNat % 128 else number field) = length) :
      scan (first :: second :: field ++ behind) =
        scanPayload (decide (8 ≤ first.toNat / 16)) true (first.toNat % 16) length behind := by
    have enough : ¬ (field ++ behind).length < field.length := by
      rw [List.length_append]
      omega
    rw [List.cons_append, List.cons_append, scan]
    simp only [if_neg sound, if_neg enough, ← wide, List.take_left, List.drop_left, means,
      isMasked, decide_true]
  unfold lengthField
  split
  · rename_i short
    have second : (UInt8.ofNat (128 + length)).toNat = 128 + length := by
      rw [UInt8.toNat_ofNat']
      omega
    have rest : (128 + length) % 128 = length := by omega
    apply scanned
    · omega
    · rw [second, rest, lengthBytes, if_neg (by omega), if_neg (by omega)]
      rfl
    · rw [second, rest, if_pos short]
  · split
    · rename_i middle
      refine scanned (UInt8.ofNat (128 + 126)) (bigEndian 2 length) (by decide) ?_ ?_
      · rw [length_bigEndian]
        decide
      · exact number_bigEndian middle
    · refine scanned (UInt8.ofNat (128 + 127)) (bigEndian 8 length) (by decide) ?_ ?_
      · rw [length_bigEndian]
        decide
      · exact number_bigEndian (Nat.lt_of_le_of_lt fits (by decide))

private theorem scanPayload_masked {final : Bool} {opcode : Nat} {key masked : List UInt8}
    (four : key.length = 4) (fits : masked.length ≤ longest)
    (control : isControl opcode = true → final = true ∧ masked.length ≤ 125)
    (rest : List UInt8) :
    scanPayload final true opcode masked.length (key ++ (masked ++ rest)) =
      .frame ⟨final, opcode, unmask key masked⟩ rest := by
  have enough : ¬ (key ++ (masked ++ rest)).length <
      (if true = true then 4 else 0) + masked.length := by
    simp only [List.length_append, four, if_true]
    omega
  have sound : ¬ (!true || (isControl opcode &&
      (!final || decide (125 < masked.length)))) = true := by
    cases isIts : isControl opcode with
    | false => simp
    | true =>
      obtain ⟨whole, short⟩ := control isIts
      simp [whole, short]
  rw [scanPayload, if_neg (Nat.not_lt.mpr fits), if_neg enough, if_neg sound]
  simp only [← four, List.take_left, List.drop_left]

/-- What a client writes is read as it was written. -/
theorem scan_encodeMasked {key : List UInt8} (four : key.length = 4) {frame : SocketFrame}
    (proper : frame.Proper) (rest : List UInt8) :
    scan (encodeMasked key frame ++ rest) = .frame frame rest := by
  obtain ⟨opcode, flags⟩ := firstByte_parts proper.known
  have final : decide (8 ≤ frame.firstByte.toNat / 16) = frame.final := by
    rw [flags]
    cases frame.final <;> rfl
  have plain : frame.firstByte.toNat / 16 % 8 = 0 := by
    rw [flags]
    cases frame.final <;> rfl
  have length := length_unmask key frame.payload
  rw [encodeMasked, List.append_assoc, List.append_assoc,
    scan_header (opcode.symm ▸ proper.known) plain proper.fits, opcode, final, ← length,
    scanPayload_masked four (length.symm ▸ proper.fits) (length.symm ▸ proper.control),
    unmask_unmask]

end SocketFrame

/-! ## All frames -/

namespace FrameReader

/-- Takes the first frame of what is held, absent if none is complete. -/
def next? (reader : FrameReader) : Option (FrameReader × List SocketEvent) :=
  if reader.isOver then none
  else
    match SocketFrame.scan reader.held with
    | .incomplete => none
    | .malformed => some ({ reader with held := [], isOver := true }, [.failed])
    | .frame frame rest =>
      let taken := reader.takeFrame frame
      some ({ taken.1 with held := rest, isOver := taken.2.any isLast }, taken.2.toList)

/-- A reader that holds some more bytes. -/
def hold (reader : FrameReader) (more : List UInt8) : FrameReader :=
  { reader with held := reader.held ++ more }

/-- Takes all complete frames of what is held. -/
def drain (reader : FrameReader) : FrameReader × List SocketEvent :=
  reader.takeAll (reader.held.length + 1)

private theorem takePart_with (reader : FrameReader) (held : List UInt8) (final : Bool)
    (opcode : Nat) (payload : List UInt8) :
    { reader with held }.takePart final opcode payload =
      ({ (reader.takePart final opcode payload).1 with held },
        (reader.takePart final opcode payload).2) := by
  unfold takePart
  split
  · rfl
  · split <;> rfl

/-- A frame is taken without a look at the bytes behind it. -/
theorem takeFrame_with (reader : FrameReader) (held : List UInt8) (frame : SocketFrame) :
    { reader with held }.takeFrame frame =
      ({ (reader.takeFrame frame).1 with held }, (reader.takeFrame frame).2) := by
  unfold takeFrame
  split
  · rfl
  · dsimp only
    split
    all_goals first
      | rfl
      | exact takePart_with ..

variable {reader next : FrameReader} {events : List SocketEvent}

theorem held_next? (found : reader.next? = some (next, events)) :
    next.held.length < reader.held.length := by
  unfold next? at found
  split at found
  · cases found
  · split at found
    · cases found
    · rename_i scanned
      cases found
      cases held : reader.held with
      | nil =>
        rw [held] at scanned
        cases scanned
      | cons first rest => exact Nat.zero_lt_succ _
    · rename_i frame rest scanned
      cases found
      exact SocketFrame.length_lt_of_scan scanned

private theorem takeAll_of_isOver (finished : reader.isOver = true) (fuel : Nat) :
    takeAll fuel reader = (reader, []) := by
  cases fuel with
  | zero => rfl
  | succ fuel => rw [takeAll, if_pos finished]

private theorem takeAll_succ (reader : FrameReader) (fuel : Nat) :
    takeAll (fuel + 1) reader =
      match reader.next? with
      | none => (reader, [])
      | some (next, events) => ((takeAll fuel next).1, events ++ (takeAll fuel next).2) := by
  rw [takeAll, next?]
  by_cases finished : reader.isOver = true
  · rw [if_pos finished, if_pos finished]
  · rw [if_neg finished, if_neg finished]
    cases SocketFrame.scan reader.held with
    | incomplete => rfl
    | malformed =>
      dsimp only
      rw [takeAll_of_isOver rfl]
      rfl
    | frame frame rest => simp only [takeFrame_with reader rest frame]

private theorem takeAll_of_none (none_ : reader.next? = none) (fuel : Nat) :
    takeAll fuel reader = (reader, []) := by
  cases fuel with
  | zero => rfl
  | succ fuel => rw [takeAll_succ, none_]

private theorem takeAll_of_some (found : reader.next? = some (next, events)) (fuel : Nat) :
    takeAll (fuel + 1) reader =
      ((takeAll fuel next).1, events ++ (takeAll fuel next).2) := by
  rw [takeAll_succ, found]

/-- As every frame has some bytes, it is enough to have more fuel than bytes. -/
theorem takeAll_eq {fuel other : Nat} (enough : reader.held.length < fuel)
    (alsoEnough : reader.held.length < other) : takeAll fuel reader = takeAll other reader := by
  induction fuel generalizing other reader with
  | zero => exact absurd enough (Nat.not_lt_zero _)
  | succ fuel ih =>
    cases found : reader.next? with
    | none => rw [takeAll_of_none found, takeAll_of_none found]
    | some taken =>
      obtain ⟨next, events⟩ := taken
      have fewer := held_next? found
      cases other with
      | zero => exact absurd alsoEnough (Nat.not_lt_zero _)
      | succ other =>
        have same : takeAll fuel next = takeAll other next := ih (by omega) (by omega)
        rw [takeAll_of_some found, takeAll_of_some found, same]

private theorem drain_of_none (none_ : reader.next? = none) : reader.drain = (reader, []) :=
  takeAll_of_none none_ _

theorem drain_of_some (found : reader.next? = some (next, events)) :
    reader.drain = (next.drain.1, events ++ next.drain.2) := by
  have fewer := held_next? found
  rw [drain, takeAll_of_some found, drain, takeAll_eq fewer (Nat.lt_succ_self _)]

theorem drain_of_isOver (finished : reader.isOver = true) : reader.drain = (reader, []) :=
  takeAll_of_isOver finished _

/-- What is read first does not depend on what has not come yet. Behind the end of a stream nothing
is kept. -/
theorem next?_hold (found : reader.next? = some (next, events)) (more : List UInt8) :
    ∃ later, (reader.hold more).next? = some (later, events) ∧
      (next.isOver = true → later.isOver = true) ∧
      (next.isOver = false → later = next.hold more) := by
  have scan {front : FrameScan} (scanned : SocketFrame.scan reader.held = front)
      (decided : front ≠ .incomplete) :
      SocketFrame.scan (reader.hold more).held = front.before more := by
    rw [hold, SocketFrame.scan_append (scanned ▸ decided), scanned]
  have same : (reader.hold more).isOver = reader.isOver := rfl
  unfold next? at found ⊢
  rw [same]
  split at found
  · cases found
  · rename_i going
    rw [if_neg going]
    split at found
    · cases found
    · rename_i scanned
      cases found
      rw [scan scanned nofun, FrameScan.before]
      exact ⟨_, rfl, fun _ => rfl, nofun⟩
    · rename_i frame rest scanned
      obtain ⟨rfl, rfl⟩ := Prod.mk.inj (Option.some.inj found)
      rw [scan scanned nofun, FrameScan.before]
      simp only [hold, takeFrame_with reader (reader.held ++ more) frame]
      exact ⟨_, rfl, id, fun _ => rfl⟩

/-- Behind the end of a stream nothing is read, and up to it what comes later is read by itself. -/
theorem drain_hold (reader : FrameReader) (more : List UInt8) :
    (reader.drain.1.isOver = true → (reader.hold more).drain.2 = reader.drain.2) ∧
    (reader.drain.1.isOver = false →
      (reader.hold more).drain =
        ((reader.drain.1.receive more).1, reader.drain.2 ++ (reader.drain.1.receive more).2)) := by
  induction bytes : reader.held.length using Nat.strongRecOn generalizing reader with
  | _ count ih =>
    cases found : reader.next? with
    | none =>
      rw [drain_of_none found]
      constructor
      · intro finished
        have still : (reader.hold more).isOver = true := finished
        rw [drain_of_isOver still]
      · intro going
        rfl
    | some taken =>
      obtain ⟨next, events⟩ := taken
      obtain ⟨later, still, ends, goesOn⟩ := next?_hold found more
      obtain ⟨finished, going⟩ := ih next.held.length (bytes ▸ held_next? found) next rfl
      rw [drain_of_some found, drain_of_some still]
      by_cases last : next.isOver = true
      · rw [drain_of_isOver last, drain_of_isOver (ends last)]
        constructor
        · exact fun _ => rfl
        · intro notOver
          cases last.symm.trans notOver
      · rw [goesOn (Bool.eq_false_iff.mpr last)]
        constructor
        · intro isOver
          exact congrArg (events ++ ·) (finished isOver)
        · intro notOver
          rw [going notOver, List.append_assoc]

private theorem hold_hold (reader : FrameReader) (earlier later : List UInt8) :
    (reader.hold earlier).hold later = reader.hold (earlier ++ later) := by
  simp only [hold, List.append_assoc]

/-- However bytes are cut, the same is read from them. -/
theorem receive_append (reader : FrameReader) (earlier later : List UInt8) :
    ((reader.receive earlier).1.isOver = true →
      (reader.receive (earlier ++ later)).2 = (reader.receive earlier).2) ∧
    ((reader.receive earlier).1.isOver = false →
      reader.receive (earlier ++ later) =
        (((reader.receive earlier).1.receive later).1,
          (reader.receive earlier).2 ++ ((reader.receive earlier).1.receive later).2)) := by
  have law := (reader.hold earlier).drain_hold later
  rwa [hold_hold] at law

private theorem any_toList (event? : Option SocketEvent) :
    event?.toList.any isLast = event?.any isLast := by
  cases event? with
  | none => rfl
  | some event => exact Bool.or_false _

private theorem isOver_next? (found : reader.next? = some (next, events)) :
    next.isOver = events.any isLast := by
  unfold next? at found
  split at found
  · cases found
  · split at found
    · cases found
    · cases found
      rfl
    · obtain ⟨rfl, rfl⟩ := Prod.mk.inj (Option.some.inj found)
      exact (any_toList _).symm

private theorem isOver_drain (going : reader.isOver = false) :
    reader.drain.1.isOver = reader.drain.2.any isLast := by
  induction bytes : reader.held.length using Nat.strongRecOn generalizing reader with
  | _ count ih =>
    cases found : reader.next? with
    | none =>
      rw [drain_of_none found]
      exact going
    | some taken =>
      obtain ⟨next, events⟩ := taken
      have ends := isOver_next? found
      rw [drain_of_some found, List.any_append, ← ends]
      by_cases last : next.isOver = true
      · rw [drain_of_isOver last, last, Bool.true_or]
      · have goesOn := Bool.eq_false_iff.mpr last
        rw [goesOn, Bool.false_or]
        exact ih next.held.length (bytes ▸ held_next? found) goesOn rfl

/-- The stream is over once its last event was read. -/
theorem isOver_receive (going : reader.isOver = false) (bytes : List UInt8) :
    (reader.receive bytes).1.isOver = (reader.receive bytes).2.any isLast :=
  isOver_drain (show (reader.hold bytes).isOver = false from going)

/-! ## Streams that clients write -/

/-- Bytes in which a client has written some events, one frame for each. The last frame may not
have come yet, or be none. -/
inductive Carries : List UInt8 → List SocketEvent → Prop
  | cut {bytes : List UInt8} : SocketFrame.scan bytes = .incomplete → Carries bytes []
  | broken {bytes : List UInt8} : SocketFrame.scan bytes = .malformed → Carries bytes [.failed]
  | written {key rest : List UInt8} {frame : SocketFrame} {event : SocketEvent}
      {events : List SocketEvent} :
      SocketFrame.ofEvent? event = some frame → frame.Proper → key.length = 4 →
        Carries rest events →
          Carries (SocketFrame.encodeMasked key frame ++ rest) (event :: events)

/-- Events up to the first that ends a stream. -/
def upToLast : List SocketEvent → List SocketEvent
  | [] => []
  | event :: rest => event :: if isLast event then [] else upToLast rest

/-- A frame that says what an event says is taken for this event. -/
theorem takeFrame_ofEvent? {event : SocketEvent} {frame : SocketFrame}
    (means : SocketFrame.ofEvent? event = some frame) (proper : frame.Proper) :
    takeFrame {} frame = ({}, some event) := by
  have limits : SocketFrame.longest ≤ longestMessage := by decide
  have fits : ¬ longestMessage < frame.payload.length :=
    Nat.not_lt.mpr (Nat.le_trans proper.fits limits)
  cases event with
  | text body =>
    cases means
    have good : isBroken 1 (Utf8.encode body.toList) = false := by
      have short : ¬ longestMessage < (Utf8.encode body.toList).length := fits
      simp only [isBroken, decide_eq_false short, Utf8.decode_encode, Bool.and_false, Bool.or_false]
    have same : eventOf 1 (Utf8.encode body.toList) = .text body := by
      simp only [eventOf, if_true, Utf8.decode_encode, String.ofList_toList]
    change takePart {} true 1 (Utf8.encode body.toList) = _
    simp only [takePart, good, same, Bool.false_eq_true, if_false, if_true]
  | binary bytes =>
    cases means
    have good : isBroken 2 bytes = false := by
      simp only [isBroken, decide_eq_false fits]
      rfl
    change takePart {} true 2 bytes = _
    simp only [takePart, good, Bool.false_eq_true, if_false, if_true]
    rfl
  | ping bytes | pong bytes | close =>
    cases means
    rfl
  | failed => cases means

private theorem drain_carries {bytes : List UInt8} {events : List SocketEvent}
    (carries : Carries bytes events) : (drain { held := bytes }).2 = upToLast events := by
  induction carries with
  | @cut bytes scanned =>
    have none_ : next? { held := bytes } = none := by
      simp only [next?, scanned, Bool.false_eq_true, if_false]
    rw [drain_of_none none_, upToLast]
  | @broken bytes scanned =>
    have found : next? { held := bytes } = some ({ isOver := true }, [.failed]) := by
      simp only [next?, scanned, Bool.false_eq_true, if_false]
    rw [drain_of_some found, drain_of_isOver rfl]
    rfl
  | @written key rest frame event events means proper four _ ih =>
    have found : next? { held := SocketFrame.encodeMasked key frame ++ rest } =
        some ({ held := rest, isOver := isLast event }, [event]) := by
      have taken := takeFrame_with {} (SocketFrame.encodeMasked key frame ++ rest) frame
      rw [takeFrame_ofEvent? means proper] at taken
      simp only [next?, SocketFrame.scan_encodeMasked four proper, taken, Bool.false_eq_true,
        if_false]
      rfl
    rw [drain_of_some found, upToLast]
    cases ends : isLast event with
    | true =>
      rw [drain_of_isOver rfl]
      rfl
    | false =>
      rw [ih]
      rfl

/-- What clients write is read up to the event that ends the stream. -/
theorem receive_carries {bytes : List UInt8} {events : List SocketEvent}
    (carries : Carries bytes events) : (receive {} bytes).2 = upToLast events :=
  drain_carries carries

end FrameReader

end ChatHub
