import ChatHub.Text.Utf8
/-!
Bytes of a text read back as that text, no other bytes are read as a text, and the byte of a control
character occurs only where the character does.
-/

set_option autoImplicit false

namespace ChatHub.Utf8

theorem encode_append (first later : List Char) :
    encode (first ++ later) = encode first ++ encode later :=
  List.flatMap_append

@[simp] theorem encode_cons (character : Char) (rest : List Char) :
    encode (character :: rest) = encodeChar character ++ encode rest :=
  rfl

theorem encode_replicate {character : Char} {byte : UInt8}
    (single : encodeChar character = [byte]) (count : Nat) :
    encode (List.replicate count character) = List.replicate count byte := by
  induction count with
  | zero => rfl
  | succ fewer ih =>
    rw [List.replicate_succ, encode_cons, single, ih]
    rfl

theorem toNat_byte {value : Nat} (small : value < 256) : (UInt8.ofNat value).toNat = value := by
  simpa using Nat.mod_eq_of_lt small

/-! ## Reading back -/

section Ranges

variable {byte lead : UInt8}

theorem isTail_iff : isTail byte = true ↔ 0x80 ≤ byte.toNat ∧ byte.toNat ≤ 0xBF := by
  simp [isTail, UInt8.le_iff_toNat_le]

/-- Only four leads narrow the range of the byte behind them. -/
theorem isSecond_iff : isSecond lead byte = true ↔
    0x80 ≤ byte.toNat ∧ byte.toNat ≤ 0xBF ∧
      (lead.toNat = 0xE0 → 0xA0 ≤ byte.toNat) ∧ (lead.toNat = 0xED → byte.toNat ≤ 0x9F) ∧
      (lead.toNat = 0xF0 → 0x90 ≤ byte.toNat) ∧ (lead.toNat = 0xF4 → byte.toNat ≤ 0x8F) := by
  have value : ∀ other : UInt8, lead = other ↔ lead.toNat = other.toNat :=
    fun _ => UInt8.toNat_inj.symm
  unfold isSecond
  simp only [value, UInt8.toNat_ofNat, Nat.reducePow, Nat.reduceMod]
  split
  · simp [UInt8.le_iff_toNat_le]; omega
  split
  · simp [UInt8.le_iff_toNat_le]; omega
  split
  · simp [UInt8.le_iff_toNat_le]; omega
  split
  · simp [UInt8.le_iff_toNat_le]; omega
  · rw [isTail_iff]; omega

end Ranges

theorem isTail_byte {bits : Nat} (small : bits < 0x40) :
    isTail (UInt8.ofNat (0x80 + bits)) = true := by
  rw [isTail_iff, toNat_byte (by omega)]
  omega

theorem tailBits_byte {bits : Nat} (small : bits < 0x40) :
    tailBits (UInt8.ofNat (0x80 + bits)) = bits :=
  (congrArg (· - 0x80) (toNat_byte (by omega))).trans (Nat.add_sub_cancel_left 0x80 bits)

/-! One step of reading for each length of a character, by the range of its first byte. -/

section Steps

variable {index : Nat} {read : List Char} {first second third fourth : UInt8} {rest : List UInt8}
  {lead : Nat}

private theorem decodeFrom_one (isLead : first.toNat = lead) (small : lead < 0x80) :
    decodeFrom index read (first :: rest) =
      decodeFrom (index + 1) (Char.ofNat lead :: read) rest := by
  subst isLead
  have isOne : first < 0x80 := UInt8.lt_iff_toNat_lt.mpr small
  rw [decodeFrom.eq_def]
  simp only [isOne, if_true]

private theorem decodeFrom_two (isLead : first.toNat = lead) (range : 0xC2 ≤ lead ∧ lead < 0xE0)
    (tailed : isTail second = true) :
    decodeFrom index read (first :: second :: rest) =
      decodeFrom (index + 2) (Char.ofNat ((lead - 0xC0) * 0x40 + tailBits second) :: read)
        rest := by
  subst isLead
  have notOne : ¬first < 0x80 := by simp only [UInt8.lt_iff_toNat_lt, UInt8.reduceToNat]; omega
  have notBad : ¬(decide (first < 0xC2) || decide (0xF4 < first)) = true := by
    simp [UInt8.lt_iff_toNat_lt]; omega
  have isTwo : first < 0xE0 := UInt8.lt_iff_toNat_lt.mpr range.2
  rw [decodeFrom.eq_def]
  simp only [notOne, notBad, isTwo, tailed, Bool.false_eq_true, if_true, if_false]

private theorem decodeFrom_three (isLead : first.toNat = lead) (range : 0xE0 ≤ lead ∧ lead < 0xF0)
    (seconds : isSecond first second = true) (tailed : isTail third = true) :
    decodeFrom index read (first :: second :: third :: rest) =
      decodeFrom (index + 3)
        (Char.ofNat ((lead - 0xE0) * 0x1000 + tailBits second * 0x40 + tailBits third) :: read)
        rest := by
  subst isLead
  have notOne : ¬first < 0x80 := by simp only [UInt8.lt_iff_toNat_lt, UInt8.reduceToNat]; omega
  have notBad : ¬(decide (first < 0xC2) || decide (0xF4 < first)) = true := by
    simp [UInt8.lt_iff_toNat_lt]; omega
  have notTwo : ¬first < 0xE0 := by simp only [UInt8.lt_iff_toNat_lt, UInt8.reduceToNat]; omega
  have isThree : first < 0xF0 := UInt8.lt_iff_toNat_lt.mpr range.2
  rw [decodeFrom.eq_def]
  simp only [notOne, notBad, notTwo, isThree, seconds, tailed, Bool.false_eq_true, if_true,
    if_false]

private theorem decodeFrom_four (isLead : first.toNat = lead) (range : 0xF0 ≤ lead ∧ lead ≤ 0xF4)
    (seconds : isSecond first second = true) (tailed : isTail third = true)
    (last : isTail fourth = true) :
    decodeFrom index read (first :: second :: third :: fourth :: rest) =
      decodeFrom (index + 4)
        (Char.ofNat ((lead - 0xF0) * 0x40000 + tailBits second * 0x1000 + tailBits third * 0x40
          + tailBits fourth) :: read) rest := by
  subst isLead
  have notOne : ¬first < 0x80 := by simp only [UInt8.lt_iff_toNat_lt, UInt8.reduceToNat]; omega
  have notBad : ¬(decide (first < 0xC2) || decide (0xF4 < first)) = true := by
    simp [UInt8.lt_iff_toNat_lt]; omega
  have notTwo : ¬first < 0xE0 := by simp only [UInt8.lt_iff_toNat_lt, UInt8.reduceToNat]; omega
  have notThree : ¬first < 0xF0 := by simp only [UInt8.lt_iff_toNat_lt, UInt8.reduceToNat]; omega
  rw [decodeFrom.eq_def]
  simp only [notOne, notBad, notTwo, notThree, seconds, tailed, last, Bool.false_eq_true, if_true,
    if_false]

end Steps

/-- No character is a surrogate, and none lies beyond the last plane. -/
theorem isScalar (character : Char) :
    character.toNat < 0xD800 ∨ 0xDFFF < character.toNat ∧ character.toNat < 0x110000 :=
  character.valid

/-- The character is read from its bytes, by the number of them. -/
theorem decodeFrom_encodeChar (index : Nat) (read : List Char) (character : Char)
    (rest : List UInt8) :
    decodeFrom index read (encodeChar character ++ rest) =
      decodeFrom (index + (encodeChar character).length) (character :: read) rest := by
  have scalar := isScalar character
  have readBack : ∀ {point : Nat}, point = character.toNat → Char.ofNat point = character :=
    fun same => same ▸ Char.ofNat_toNat character
  unfold encodeChar
  generalize character.toNat = point at scalar readBack ⊢
  have low : point % 0x40 < 0x40 := Nat.mod_lt _ (by decide)
  have middle : point / 0x40 % 0x40 < 0x40 := Nat.mod_lt _ (by decide)
  have high : point / 0x1000 % 0x40 < 0x40 := Nat.mod_lt _ (by decide)
  simp only
  by_cases one : point < 0x80
  · simp only [one, if_true, List.singleton_append]
    rw [decodeFrom_one (toNat_byte (by omega)) one, readBack rfl]
    rfl
  by_cases two : point < 0x800
  · simp only [one, two, if_true, if_false, List.cons_append, List.nil_append]
    rw [decodeFrom_two (toNat_byte (by omega)) (by omega) (isTail_byte low), tailBits_byte low,
      readBack (by omega)]
    rfl
  by_cases three : point < 0x10000
  · simp only [one, two, three, if_true, if_false, List.cons_append, List.nil_append]
    have lead := toNat_byte (show 0xE0 + point / 0x1000 < 256 by omega)
    have second := toNat_byte (show 0x80 + point / 0x40 % 0x40 < 256 by omega)
    rw [decodeFrom_three lead (by omega) (isSecond_iff.mpr (by omega)) (isTail_byte low),
      tailBits_byte middle, tailBits_byte low, readBack (by omega)]
    rfl
  · simp only [one, two, three, if_false, List.cons_append, List.nil_append]
    have lead := toNat_byte (show 0xF0 + point / 0x40000 < 256 by omega)
    have second := toNat_byte (show 0x80 + point / 0x1000 % 0x40 < 256 by omega)
    rw [decodeFrom_four lead (by omega) (isSecond_iff.mpr (by omega)) (isTail_byte middle)
      (isTail_byte low), tailBits_byte high, tailBits_byte middle, tailBits_byte low,
      readBack (by omega)]
    rfl

private theorem decodeFrom_append (index : Nat) (read text : List Char) (rest : List UInt8) :
    decodeFrom index read (encode text ++ rest) =
      decodeFrom (index + (encode text).length) (text.reverse ++ read) rest := by
  induction text generalizing index read with
  | nil => rfl
  | cons character later ih =>
    rw [encode_cons, List.append_assoc, decodeFrom_encodeChar, ih, List.length_append,
      Nat.add_assoc]
    simp

private theorem decodeFrom_encode (index : Nat) (read text : List Char) :
    decodeFrom index read (encode text) = .ok (read.reverse ++ text) := by
  have whole := decodeFrom_append index read text []
  rw [List.append_nil] at whole
  rw [whole, decodeFrom]
  simp

theorem decode_encode (text : List Char) : decode (encode text) = .ok text :=
  decodeFrom_encode 0 [] text

/-! ## Nothing but text is read -/

theorem toNat_ofNat (point : Nat)
    (scalar : point < 0xD800 ∨ 0xDFFF < point ∧ point < 0x110000) :
    (Char.ofNat point).toNat = point := by
  have valid : point.isValidChar := scalar
  rw [Char.ofNat, dif_pos valid]
  rfl

theorem ofNat_eq (byte : UInt8) {value : Nat} (same : value = byte.toNat) :
    UInt8.ofNat value = byte := by
  rw [same, UInt8.ofNat_toNat]

/-! The bytes of a character that was read are those that it was read from. -/

section Spelled

variable {first second third fourth : UInt8}

private theorem encodeChar_one (small : first < 0x80) :
    encodeChar (Char.ofNat first.toNat) = [first] := by
  have one : first.toNat < 0x80 := UInt8.lt_iff_toNat_lt.mp small
  simp only [encodeChar, toNat_ofNat _ (.inl (Nat.lt_trans one (by decide))), one, if_true,
    UInt8.ofNat_toNat]

private theorem encodeChar_two (least : 0xC2 ≤ first.toNat) (bound : first.toNat < 0xE0)
    (tailed : isTail second = true) :
    encodeChar (Char.ofNat ((first.toNat - 0xC0) * 0x40 + tailBits second)) =
      [first, second] := by
  rw [isTail_iff] at tailed
  unfold tailBits
  have point := toNat_ofNat ((first.toNat - 0xC0) * 0x40 + (second.toNat - 0x80))
    (by omega)
  simp only [encodeChar, point]
  rw [if_neg (by omega), if_pos (by omega), ofNat_eq first (by omega),
    ofNat_eq second (by omega)]

private theorem encodeChar_three (least : 0xE0 ≤ first.toNat) (bound : first.toNat < 0xF0)
    (seconds : isSecond first second = true) (tailed : isTail third = true) :
    encodeChar (Char.ofNat ((first.toNat - 0xE0) * 0x1000 + tailBits second * 0x40
      + tailBits third)) = [first, second, third] := by
  rw [isTail_iff] at tailed
  rw [isSecond_iff] at seconds
  unfold tailBits
  have point := toNat_ofNat ((first.toNat - 0xE0) * 0x1000
    + (second.toNat - 0x80) * 0x40 + (third.toNat - 0x80)) (by omega)
  simp only [encodeChar, point]
  rw [if_neg (by omega), if_neg (by omega), if_pos (by omega), ofNat_eq first (by omega),
    ofNat_eq second (by omega), ofNat_eq third (by omega)]

private theorem encodeChar_four (least : 0xF0 ≤ first.toNat) (bound : first.toNat ≤ 0xF4)
    (seconds : isSecond first second = true) (tailed : isTail third = true)
    (last : isTail fourth = true) :
    encodeChar (Char.ofNat ((first.toNat - 0xF0) * 0x40000 + tailBits second * 0x1000
      + tailBits third * 0x40 + tailBits fourth)) = [first, second, third, fourth] := by
  rw [isTail_iff] at tailed last
  rw [isSecond_iff] at seconds
  unfold tailBits
  have point := toNat_ofNat ((first.toNat - 0xF0) * 0x40000
    + (second.toNat - 0x80) * 0x1000 + (third.toNat - 0x80) * 0x40 + (fourth.toNat - 0x80))
    (by omega)
  simp only [encodeChar, point]
  rw [if_neg (by omega), if_neg (by omega), if_neg (by omega), ofNat_eq first (by omega),
    ofNat_eq second (by omega), ofNat_eq third (by omega),
    ofNat_eq fourth (by omega)]

end Spelled

private theorem encode_of_decodeFrom {index : Nat} {read text : List Char} {bytes : List UInt8}
    (decoded : decodeFrom index read bytes = .ok text) :
    encode text = encode read.reverse ++ bytes := by
  -- Each good character goes from the bytes to those read; all other cases are faults.
  have shift {character : Char} {spelled rest : List UInt8} {read : List Char}
      (spelling : encodeChar character = spelled)
      (later : encode text = encode (character :: read).reverse ++ rest) :
      encode text = encode read.reverse ++ (spelled ++ rest) := by
    rw [later, List.reverse_cons, encode_append, List.append_assoc, ← spelling]
    simp [encode]
  fun_induction decodeFrom index read bytes with
  | case1 index read =>
    cases decoded
    simp
  | case2 index read first rest one ih => exact shift (encodeChar_one one) (ih decoded)
  | case5 index read first notOne good two second rest tailed ih =>
    simp [UInt8.lt_iff_toNat_lt] at good two
    exact shift (encodeChar_two (by omega) (by omega) tailed) (ih decoded)
  | case9 index read first notOne good notTwo three second seconds third rest tailed ih =>
    simp [UInt8.lt_iff_toNat_lt] at notTwo three
    exact shift (encodeChar_three (by omega) (by omega) seconds tailed) (ih decoded)
  | case15 index read first notOne good notTwo notThree second seconds third tailed fourth rest last
      ih =>
    simp [UInt8.lt_iff_toNat_lt] at good notThree
    exact shift (encodeChar_four (by omega) (by omega) seconds tailed last) (ih decoded)
  | _ => cases decoded

/-- Bytes that are read as a text are the bytes of that text. -/
theorem decode_eq_ok_iff {bytes : List UInt8} {text : List Char} :
    decode bytes = .ok text ↔ encode text = bytes := by
  constructor
  · intro decoded
    simpa [encode] using encode_of_decodeFrom decoded
  · rintro rfl
    exact decode_encode text

theorem encode_injective {first second : List Char} (same : encode first = encode second) :
    first = second := by
  have read := decode_eq_ok_iff.mpr same
  rw [decode_encode] at read
  exact (Except.ok.inj read).symm

/-- What has been read stands in front of the text. -/
theorem reverse_prefix_of_decodeFrom {index : Nat} {read text : List Char} {bytes : List UInt8}
    (decoded : decodeFrom index read bytes = .ok text) : read.reverse <+: text := by
  have shorter {character : Char} {read : List Char}
      (later : (character :: read).reverse <+: text) : read.reverse <+: text := by
    rw [List.reverse_cons] at later
    exact (List.prefix_append _ _).trans later
  fun_induction decodeFrom index read bytes with
  | case1 =>
    cases decoded
    exact List.prefix_rfl
  | case2 _ _ _ _ _ ih => exact shorter (ih decoded)
  | case5 _ _ _ _ _ _ _ _ _ ih => exact shorter (ih decoded)
  | case9 _ _ _ _ _ _ _ _ _ _ _ _ ih => exact shorter (ih decoded)
  | case15 _ _ _ _ _ _ _ _ _ _ _ _ _ _ ih => exact shorter (ih decoded)
  | _ => cases decoded

/-- Where the bytes of a text begin like those of another one, so do the texts. -/
theorem exists_of_encode_append {front text : List Char} {rest : List UInt8}
    (same : encode front ++ rest = encode text) : ∃ later, text = front ++ later := by
  have decoded := decode_encode text
  rw [← same, decode, decodeFrom_append] at decoded
  have isPrefix := reverse_prefix_of_decodeFrom decoded
  rw [List.append_nil, List.reverse_reverse] at isPrefix
  exact isPrefix.imp fun _ => Eq.symm

/-! ## Where characters begin -/

/-- The first byte of a character is a tail of none, and all others are tails. -/
theorem encodeChar_parts (character : Char) :
    ∃ lead tails, encodeChar character = lead :: tails ∧ isTail lead = false ∧
      ∀ byte ∈ tails, isTail byte = true := by
  have scalar := isScalar character
  have isLead : ∀ {value : Nat}, value < 0x80 ∨ 0xC0 ≤ value → value < 0x100 →
      isTail (UInt8.ofNat value) = false := by
    intro value range small
    rw [← Bool.not_eq_true, isTail_iff, toNat_byte small]
    omega
  have isRest : ∀ bits, isTail (UInt8.ofNat (0x80 + bits % 0x40)) = true := fun bits =>
    isTail_byte (Nat.mod_lt bits (by decide))
  unfold encodeChar
  generalize character.toNat = point at scalar ⊢
  simp only
  by_cases one : point < 0x80
  · rw [if_pos one]
    exact ⟨_, _, rfl, isLead (.inl one) (by omega), fun _ member => by cases member⟩
  by_cases two : point < 0x800
  · simp only [one, two, if_true, if_false]
    refine ⟨_, _, rfl, isLead (.inr (by omega)) (by omega), ?_⟩
    exact List.forall_mem_singleton.mpr (isRest _)
  by_cases three : point < 0x10000
  · simp only [one, two, three, if_true, if_false]
    refine ⟨_, _, rfl, isLead (.inr (by omega)) (by omega), ?_⟩
    exact List.forall_mem_cons.mpr ⟨isRest _, List.forall_mem_singleton.mpr (isRest _)⟩
  · simp only [one, two, three, if_false]
    refine ⟨_, _, rfl, isLead (.inr (by omega)) (by omega), ?_⟩
    exact List.forall_mem_cons.mpr
      ⟨isRest _, List.forall_mem_cons.mpr ⟨isRest _, List.forall_mem_singleton.mpr (isRest _)⟩⟩

/-- Text at the end of the bytes of a text is the end of that text. It does not begin inside a
character. -/
theorem exists_of_append_encode {front : List UInt8} {later text : List Char}
    (whole : front ++ encode later = encode text) :
    ∃ first, encode first = front ∧ text = first ++ later := by
  induction text generalizing front with
  | nil =>
    obtain ⟨rfl, none⟩ := List.append_eq_nil_iff.mp whole
    exact ⟨[], rfl, encode_injective none.symm⟩
  | cons character rest ih =>
    rcases List.append_eq_append_iff.mp (whole.trans (encode_cons character rest)) with
      ⟨back, spelled, behind⟩ | ⟨further, rfl, behind⟩
    · cases front with
      | nil =>
        rw [List.nil_append] at spelled
        rw [← spelled, ← encode_cons] at behind
        exact ⟨[], rfl, (encode_injective behind).symm⟩
      | cons lead middle =>
        cases back with
        | nil =>
          rw [List.append_nil] at spelled
          refine ⟨[character], ?_, ?_⟩
          · rw [← spelled]
            exact List.append_nil _
          · rw [encode_injective behind]
            rfl
        | cons byte tails =>
          -- The text would begin with a tail.
          have inside : isTail byte = true := by
            obtain ⟨_, others, parts, _, areTails⟩ := encodeChar_parts character
            rw [parts, List.cons_append] at spelled
            apply areTails
            rw [(List.cons.inj spelled).2]
            exact List.mem_append_right middle List.mem_cons_self
          cases later with
          | nil => cases behind
          | cons next others =>
            obtain ⟨start, _, parts, isStart, _⟩ := encodeChar_parts next
            rw [encode_cons, parts] at behind
            obtain rfl := (List.cons.inj behind).1
            exact absurd inside (by simp [isStart])
    · obtain ⟨first, rfl, rfl⟩ := ih behind.symm
      exact ⟨character :: first, rfl, rfl⟩

/-! ## Bytes below 128 -/

/-- A byte below 128 is a whole character; all others are at least 128. -/
theorem toNat_eq_of_mem_encodeChar {character : Char} {byte : UInt8}
    (member : byte ∈ encodeChar character) (small : byte.toNat < 0x80) :
    byte.toNat = character.toNat := by
  have scalar := isScalar character
  have large : ∀ {value : Nat}, 0x80 ≤ value → value < 0x100 → byte ≠ UInt8.ofNat value := by
    rintro value least bound rfl
    rw [toNat_byte bound] at small
    omega
  unfold encodeChar at member
  generalize character.toNat = point at scalar member ⊢
  simp only at member
  by_cases one : point < 0x80
  · rw [if_pos one, List.mem_singleton] at member
    rw [member, toNat_byte (by omega)]
  by_cases two : point < 0x800
  · simp only [one, two, if_true, if_false, List.mem_cons, List.not_mem_nil, or_false] at member
    rcases member with lead | tail
    · exact absurd lead (large (by omega) (by omega))
    · exact absurd tail (large (by omega) (by omega))
  by_cases three : point < 0x10000
  · simp only [one, two, three, if_true, if_false, List.mem_cons, List.not_mem_nil,
      or_false] at member
    rcases member with lead | second | tail
    · exact absurd lead (large (by omega) (by omega))
    · exact absurd second (large (by omega) (by omega))
    · exact absurd tail (large (by omega) (by omega))
  · simp only [one, two, three, if_false, List.mem_cons, List.not_mem_nil, or_false] at member
    rcases member with lead | second | third | tail
    · exact absurd lead (large (by omega) (by omega))
    · exact absurd second (large (by omega) (by omega))
    · exact absurd third (large (by omega) (by omega))
    · exact absurd tail (large (by omega) (by omega))

/-- A line feed is a byte of no character but itself. -/
theorem lineFeed_not_mem_encode {text : List Char} (absent : '\n' ∉ text) :
    (10 : UInt8) ∉ encode text := by
  intro member
  obtain ⟨character, inText, inBytes⟩ := List.mem_flatMap.mp member
  have isFeed := toNat_eq_of_mem_encodeChar inBytes (by decide)
  have same : character = '\n' := by
    rw [← Char.ofNat_toNat character, ← isFeed]
    rfl
  exact absent (same ▸ inText)

end ChatHub.Utf8
