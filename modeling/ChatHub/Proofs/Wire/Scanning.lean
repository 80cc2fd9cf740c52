import ChatHub.Proofs.Wire.Line
/-!
Scanning gives a record just where the grammar has one. Members fill the slots of their fields one
by one, each slot once; the elements of a list fill them in order.
-/

set_option autoImplicit false

namespace ChatHub.Wire

open Json

/-- A format whose records are made of the slots of its fields and of nothing else. -/
structure Format.Exact {α : Type} (format : Format α) : Prop extends format.Lawful where
  made : ∀ (slots : Slots) (message : α), format.build slots = .ok message ↔
    ∀ field ∈ format.fields, slots.get? field = some (format.value message field)

theorem inboundFormat_exact : inboundFormat.Exact where
  toLawful := inboundFormat_lawful
  made slots message := by
    obtain ⟨sender, text, timestamp⟩ := slots
    obtain ⟨named, said⟩ := message
    cases sender <;> cases text <;> simp [inboundFormat, Slots.get?]

theorem stampedFormat_exact : stampedFormat.Exact where
  toLawful := stampedFormat_lawful
  made slots message := by
    obtain ⟨sender, text, timestamp⟩ := slots
    obtain ⟨named, said, stamped⟩ := message
    cases sender <;> cases text <;> cases timestamp <;> simp [stampedFormat, Slots.get?]

/-! ## Scanning members -/

section Members

variable {α : Type} {format : Format α} {text rest : List Char}

private theorem scanString_eq_ok_iff {value : String} :
    scanString text = .ok (value, rest) ↔
      ∃ blanks quoted, IsBlanks blanks ∧ text = blanks ++ '"' :: quoted ∧
        Spells quoted value.toList rest := by
  constructor
  · intro scanned
    obtain ⟨blanks, areBlanks, parts⟩ := exists_blanks text
    unfold scanString at scanned
    split at scanned
    · cases scanned
    · rename_i front
      split at scanned
      · rename_i quote
        split at scanned
        · cases scanned
        · rename_i quoted
          cases scanned
          rw [String.toList_ofList]
          exact ⟨blanks, _, areBlanks, parts.trans (by rw [front, quote]),
            Quoted.scan_eq_ok_iff.mp quoted⟩
      · exact absurd scanned (refuse_ne_ok _ _ _ _)
  · rintro ⟨blanks, quoted, areBlanks, rfl, spelled⟩
    have quote : isBlank '"' = false := rfl
    simp only [scanString, skipBlank_append areBlanks, skipBlank_cons quote, if_true,
      Quoted.scan_eq_ok_iff.mpr spelled, String.ofList_toList]

private theorem scanString_cons_eq_ok {first : Char} {value : String}
    (notBlank : isBlank first = false) (scanned : scanString (first :: text) = .ok (value, rest)) :
    first = '"' ∧ Spells text value.toList rest := by
  obtain ⟨blanks, quoted, areBlanks, parts, spelled⟩ := scanString_eq_ok_iff.mp scanned
  cases blanks with
  | nil =>
    obtain ⟨rfl, rfl⟩ := List.cons.inj parts
    exact ⟨rfl, spelled⟩
  | cons blank others =>
    obtain ⟨rfl, _⟩ := List.cons.inj parts
    rw [areBlanks first List.mem_cons_self] at notBlank
    cases notBlank

/-- What a member does to the slots. -/
inductive Format.Takes (format : Format α) : Slots → Member → Slots → Prop where
  | field {slots : Slots} {field : Field} {quoted : List Char} {value : String} :
      field ∈ format.fields → slots.get? field = none → Spells quoted value.toList [] →
      format.Takes slots ⟨field.name.toList, '"' :: quoted⟩ (slots.set field value)
  | other {slots : Slots} {member : Member} :
      format.field? member.name = none → format.Takes slots member slots

/-- What members do in order. -/
inductive Format.Fills (format : Format α) : Slots → List Member → Slots → Prop where
  | nil {slots : Slots} : format.Fills slots [] slots
  | cons {slots taken filled : Slots} {member : Member} {members : List Member} :
      format.Takes slots member taken → format.Fills taken members filled →
      format.Fills slots (member :: members) filled

private theorem field?_eq_some {name : List Char} {field : Field}
    (found : format.field? name = some field) :
    field ∈ format.fields ∧ field.name.toList = name := by
  refine ⟨List.mem_of_find?_eq_some found, ?_⟩
  simpa using List.find?_some found

private theorem scanMember_eq_ok {slots filled : Slots}
    (scanned : scanMember format slots text = .ok (filled, rest)) :
    ∃ member, IsMember ('"' :: text) member rest ∧ format.Takes slots member filled := by
  unfold scanMember at scanned
  split at scanned
  · cases scanned
  · rename_i name _ spelled
    rw [Quoted.scan_eq_ok_iff] at spelled
    split at scanned
    · rename_i field found
      obtain ⟨known, rfl⟩ := field?_eq_some found
      split at scanned
      · cases scanned
      · rename_i unset
        split at scanned
        · cases scanned
        · rename_i colon
          obtain ⟨between, areBetween, rfl⟩ := skipColon_eq_ok_iff.mp colon
          split at scanned
          · cases scanned
          · rename_i string
            cases scanned
            obtain ⟨blanks, _, areBlanks, rfl, value⟩ := scanString_eq_ok_iff.mp string
            obtain ⟨quoted, rfl, alone⟩ := value.exists_front
            have derives : Derives .value (('"' :: quoted) ++ rest) rest := .string value.closes
            exact ⟨⟨_, '"' :: quoted⟩, .mk spelled areBetween areBlanks derives,
              .field known (by simpa using unset) alone⟩
    · rename_i found
      split at scanned
      · cases scanned
      · rename_i colon
        obtain ⟨between, areBetween, rfl⟩ := skipColon_eq_ok_iff.mp colon
        split at scanned
        · cases scanned
        · rename_i skipped
          cases scanned
          cases derives_of_skipValue skipped with
          | element areBlanks derives =>
            obtain ⟨value, rfl⟩ := derives.suffix
            exact ⟨⟨name, value⟩, .mk spelled areBetween areBlanks derives, .other found⟩

private theorem scanMember_of_isMember {slots filled : Slots} {member : Member}
    (isMember : IsMember ('"' :: text) member rest) (ends : EndsNumber rest)
    (takes : format.Takes slots member filled) :
    scanMember format slots text = .ok (filled, rest) := by
  cases isMember with
  | @mk _ name between blanks value _ spelled areBetween areBlanks derives =>
    have colon := skipColon_append areBetween (blanks ++ (value ++ rest))
    cases takes with
    | field known unset value =>
      have string := scanString_eq_ok_iff.mpr
        ⟨blanks, _, areBlanks, rfl, by simpa using value.append rest⟩
      rw [List.cons_append] at colon spelled
      simp only [scanMember, Quoted.scan_eq_ok_iff.mpr spelled, Format.field?_name known, unset,
        Option.isSome_none, Bool.false_eq_true, if_false, colon, string]
    | other unknown =>
      have skipped := skipValue_of_derives (.element areBlanks derives) ends
      simp only [scanMember, Quoted.scan_eq_ok_iff.mpr spelled, unknown, colon, skipped]

private theorem buildAt_eq_ok_iff {slots : Slots} {message : α} {behind : List Char} :
    buildAt format slots text = .ok (message, behind) ↔
      format.build slots = .ok message ∧ text = behind := by
  unfold buildAt
  cases format.build slots with
  | ok record => simp
  | error field => simp [failHere]

/-- Whatever is scanned as members are members, and they fill the slots. -/
private theorem members_of_scanMembers {isFirst : Bool} {slots : Slots} {message : α}
    (scanned : scanMembers format isFirst slots text = .ok (message, rest)) :
    ∃ members filled, Members isFirst text members rest ∧ format.Fills slots members filled ∧
      format.build filled = .ok message := by
  fun_induction scanMembers format isFirst slots text with
  | case2 isFirst slots text behind front =>
    obtain ⟨blanks, areBlanks, parts⟩ := exists_blanks text
    obtain ⟨built, rfl⟩ := buildAt_eq_ok_iff.mp scanned
    rw [parts, front]
    exact ⟨[], slots, .close areBlanks, .nil, built⟩
  | case4 slots text behind taken later member _ front _ _ ih =>
    obtain ⟨blanks, areBlanks, parts⟩ := exists_blanks text
    obtain ⟨member, isMember, takes⟩ := scanMember_eq_ok member
    obtain ⟨members, filled, areMembers, fills, built⟩ := ih scanned
    rw [parts, front]
    exact ⟨member :: members, filled, .item (.first areBlanks) isMember areMembers,
      .cons takes fills, built⟩
  | case8 isFirst slots text behind notFirst name taken later member _ comma _ _ front _ ih =>
    obtain ⟨before, areBefore, parts⟩ := exists_blanks text
    obtain ⟨blanks, areBlanks, further⟩ := exists_blanks behind
    obtain ⟨member, isMember, takes⟩ := scanMember_eq_ok member
    obtain ⟨members, filled, areMembers, fills, built⟩ := ih scanned
    have whole : text = (before ++ ',' :: blanks) ++ '"' :: name := by
      rw [parts, comma, further, front, List.append_assoc, List.cons_append]
    rw [whole, eq_false_of_ne_true notFirst]
    exact ⟨member :: members, filled, .item (.later areBefore areBlanks) isMember areMembers,
      .cons takes fills, built⟩
  | _ => cases scanned

private theorem scanMembers_of_members {isFirst : Bool} {slots filled : Slots}
    {members : List Member} {message : α} (areMembers : Members isFirst text members rest)
    (fills : format.Fills slots members filled) (built : format.build filled = .ok message) :
    scanMembers format isFirst slots text = .ok (message, rest) := by
  induction areMembers generalizing slots with
  | close areBlanks =>
    cases fills
    rw [scanMembers_close areBlanks]
    exact buildAt_eq_ok_iff.mpr ⟨built, rfl⟩
  | @item isFirst before text behind rest member members leads isMember later ih =>
    obtain _ | ⟨takes, fills⟩ := fills
    obtain ⟨name, rfl⟩ : ∃ name, text = '"' :: name := by
      cases isMember
      exact ⟨_, rfl⟩
    rw [scanMembers_item leads (scanMember_of_isMember isMember later.endsNumber takes)]
    exact ih fills

/-! ## Filled slots -/

private theorem Slots.get?_set_self (slots : Slots) (field : Field) (value : String) :
    (slots.set field value).get? field = some value := by
  cases field <;> rfl

theorem named_cons_self {member : Member} {members : List Member} {name : String}
    (same : member.name = name.toList) :
    named (member :: members) name = member :: named members name :=
  List.filter_cons_of_pos (by simp [same])

private theorem named_cons_of_ne {member : Member} {members : List Member} {name : String}
    (different : member.name ≠ name.toList) :
    named (member :: members) name = named members name :=
  List.filter_cons_of_neg (by simpa using different)

theorem once_cons_of_ne {member : Member} {members : List Member} {name value : String}
    (different : member.name ≠ name.toList) :
    Once (member :: members) name value ↔ Once members name value := by
  simp only [Once, named_cons_of_ne different]

theorem Once.unique {members : List Member} {name value other : String}
    (first : Once members name value) (second : Once members name other) : value = other := by
  obtain ⟨quoted, alone, spelled⟩ := first
  obtain ⟨spelling, again, spells⟩ := second
  cases alone.symm.trans again
  exact String.toList_inj.mp (spelled.unique spells).1

theorem Format.Takes.get? {slots filled : Slots} {member : Member} {field : Field}
    (takes : format.Takes slots member filled) (known : field ∈ format.fields) :
    (member.name ≠ field.name.toList ∧ filled.get? field = slots.get? field) ∨
      (slots.get? field = none ∧ ∃ quoted value, member = ⟨field.name.toList, '"' :: quoted⟩ ∧
        Spells quoted value.toList [] ∧ filled.get? field = some value) := by
  cases takes with
  | @field other quoted value isField unset spelled =>
    by_cases same : other = field
    · subst same
      exact .inr ⟨unset, quoted, value, rfl, spelled, Slots.get?_set_self _ _ _⟩
    · refine .inl ⟨fun sameName => same ?_, Slots.get?_set_of_ne (Ne.symm same)⟩
      exact Field.eq_of_name_eq (String.toList_inj.mp sameName)
  | other unknown =>
    refine .inl ⟨fun sameName => ?_, rfl⟩
    rw [sameName, Format.field?_name known] at unknown
    cases unknown

/-- A field that is filled stands among the members once, and nowhere if it was filled before. -/
theorem Format.Fills.get? {slots filled : Slots} {members : List Member} {field : Field}
    (fills : format.Fills slots members filled) (known : field ∈ format.fields) :
    (named members field.name = [] ∧ filled.get? field = slots.get? field) ∨
      (slots.get? field = none ∧ ∃ value, filled.get? field = some value ∧
        Once members field.name value) := by
  induction fills with
  | nil => exact .inl ⟨rfl, rfl⟩
  | cons takes _ ih =>
    rcases takes.get? known with ⟨different, kept⟩ | ⟨unset, quoted, value, rfl, spelled, taken⟩
    · simp only [named_cons_of_ne different, once_cons_of_ne different, ← kept]
      exact ih
    · rcases ih with ⟨noOther, kept⟩ | ⟨unsetLater, _⟩
      · refine .inr ⟨unset, value, kept.trans taken, quoted, ?_, spelled⟩
        rw [named_cons_self rfl, noOther]
      · cases taken.symm.trans unsetLater

/-- Members in which each field stands at most once, and not at all if its slot is filled, can be
taken in order. -/
private theorem exists_fills {members : List Member} (slots : Slots)
    (once : ∀ field ∈ format.fields, named members field.name = [] ∨
      (slots.get? field = none ∧ ∃ value, Once members field.name value)) :
    ∃ filled, format.Fills slots members filled := by
  induction members generalizing slots with
  | nil => exact ⟨slots, .nil⟩
  | cons member later ih =>
    cases found : format.field? member.name with
    | none =>
      obtain ⟨filled, fills⟩ := ih slots fun field known => by
        have different : member.name ≠ field.name.toList := by
          intro same
          rw [same, Format.field?_name known] at found
          cases found
        simpa only [named_cons_of_ne different, once_cons_of_ne different] using once field known
      exact ⟨filled, .cons (.other found) fills⟩
    | some field =>
      obtain ⟨known, same⟩ := field?_eq_some found
      rcases once field known with absent | ⟨unset, value, quoted, alone, spelled⟩
      · rw [named_cons_self same.symm] at absent
        cases absent
      · rw [named_cons_self same.symm] at alone
        obtain ⟨rfl, noOther⟩ := List.cons.inj alone
        obtain ⟨filled, fills⟩ := ih (slots.set field value) fun other isField => by
          by_cases isSame : other = field
          · exact .inl (isSame ▸ noOther)
          · have different : (Member.mk field.name.toList ('"' :: quoted)).name ≠
                other.name.toList := fun sameName =>
              isSame (Field.eq_of_name_eq (String.toList_inj.mp sameName)).symm
            have later := once other isField
            simp only [named_cons_of_ne different, once_cons_of_ne different] at later
            rwa [Slots.get?_set_of_ne isSame]
        exact ⟨filled, .cons (.field known unset spelled) fills⟩

/-- Members make a record just if each of its fields stands among them once. -/
private theorem exists_fills_iff (exact : format.Exact) {members : List Member} {message : α} :
    (∃ filled, format.Fills {} members filled ∧ format.build filled = .ok message) ↔
      ∀ field ∈ format.fields, Once members field.name (format.value message field) := by
  constructor
  · rintro ⟨filled, fills, built⟩ field known
    have value := (exact.made filled message).mp built field known
    rcases fills.get? known with ⟨_, kept⟩ | ⟨_, other, taken, once⟩
    · rw [kept, Slots.get?_empty] at value
      cases value
    · cases taken.symm.trans value
      exact once
  · intro once
    obtain ⟨filled, fills⟩ := exists_fills {} fun field known =>
      .inr ⟨Slots.get?_empty field, _, once field known⟩
    refine ⟨filled, fills, (exact.made filled message).mpr fun field known => ?_⟩
    obtain ⟨quoted, alone, spelled⟩ := once field known
    rcases fills.get? known with ⟨absent, _⟩ | ⟨_, value, taken, again⟩
    · rw [alone] at absent
      cases absent
    · rw [taken, again.unique ⟨quoted, alone, spelled⟩]

/-! ## Scanning elements -/

private theorem scanListEnd_eq_ok_iff :
    scanListEnd text = .ok rest ↔ ∃ blanks, IsBlanks blanks ∧ text = blanks ++ ']' :: rest := by
  constructor
  · intro ended
    obtain ⟨blanks, areBlanks, parts⟩ := exists_blanks text
    unfold scanListEnd at ended
    split at ended
    · cases ended
    · rename_i front
      split at ended
      · rename_i bracket
        cases ended
        exact ⟨blanks, areBlanks, by rw [← bracket, ← front, ← parts]⟩
      · split at ended
        · simp only [failAtNext] at ended
          split at ended <;> cases ended
        · cases ended
  · rintro ⟨blanks, areBlanks, rfl⟩
    have bracket : isBlank ']' = false := rfl
    simp only [scanListEnd, skipBlank_append areBlanks, skipBlank_cons bracket, if_true]

private theorem scanElements_item {index : Nat} {slots : Slots} {field : Field}
    {fields : List Field} {before : List Char} {value : String} (leads : Leads (index == 0) before)
    (spelled : Spells text value.toList rest) :
    scanElements format index slots (field :: fields) (before ++ '"' :: text) =
      scanElements format (index + 1) (slots.set field value) fields rest := by
  have string : scanString ('"' :: text) = .ok (value, rest) :=
    scanString_eq_ok_iff.mpr ⟨[], text, isBlanks_nil, rfl, spelled⟩
  have quote : isBlank '"' = false := rfl
  generalize place : (index == 0) = isFirst at leads
  cases leads with
  | first areBlanks =>
    simp only [scanElements, skipBlank_append areBlanks, skipBlank_cons quote, string,
      beq_iff_eq.mp place, Char.reduceEq, if_true, if_false]
  | later areBefore areBlanks =>
    have comma : isBlank ',' = false := rfl
    simp only [scanElements, List.append_assoc, List.cons_append, skipBlank_append areBefore,
      skipBlank_cons comma, skipBlank_append areBlanks, skipBlank_cons quote, string,
      beq_eq_false_iff_ne.mp place, Char.reduceEq, if_true, if_false]

/-- One more element has its field's value. -/
private theorem exists_item_of_scanElements {index : Nat} {slots filled : Slots} {field : Field}
    {fields : List Field}
    (scanned : scanElements format index slots (field :: fields) text = .ok (filled, rest)) :
    ∃ before quoted value behind, text = before ++ '"' :: quoted ∧ Leads (index == 0) before ∧
      Spells quoted (String.toList value) behind ∧
      scanElements format (index + 1) (slots.set field value) fields behind =
        .ok (filled, rest) := by
  obtain ⟨before, areBefore, parts⟩ := exists_blanks text
  unfold scanElements at scanned
  simp only at scanned
  split at scanned
  · cases scanned
  · rename_i behind front
    split at scanned
    · cases scanned
    · split at scanned
      · rename_i atStart
        split at scanned
        · cases scanned
        · rename_i string
          obtain ⟨rfl, spelled⟩ := scanString_cons_eq_ok (isBlank_of_skipBlank front) string
          refine ⟨before, _, _, _, parts.trans (by rw [front]), ?_, spelled, scanned⟩
          rw [beq_iff_eq.mpr atStart]
          exact .first areBefore
      · rename_i notAtStart
        split at scanned
        · rename_i comma
          subst comma
          split at scanned
          · cases scanned
          · rename_i found
            obtain ⟨blanks, areBlanks, further⟩ := exists_blanks behind
            split at scanned
            · cases scanned
            · split at scanned
              · cases scanned
              · rename_i string
                obtain ⟨rfl, spelled⟩ := scanString_cons_eq_ok (isBlank_of_skipBlank found) string
                refine ⟨before ++ ',' :: blanks, _, _, _, ?_, ?_, spelled, scanned⟩
                · rw [List.append_assoc, List.cons_append, ← found, ← further, ← front, ← parts]
                · rw [beq_eq_false_iff_ne.mpr notAtStart]
                  exact .later areBefore areBlanks
        · cases scanned

private theorem scanElements_get? {index : Nat} {slots filled : Slots} {fields : List Field}
    {field : Field} (scanned : scanElements format index slots fields text = .ok (filled, rest))
    (isOther : field ∉ fields) : filled.get? field = slots.get? field := by
  induction fields generalizing index slots text with
  | nil =>
    cases scanned
    rfl
  | cons first later ih =>
    obtain ⟨_, _, value, behind, _, _, _, further⟩ := exists_item_of_scanElements scanned
    obtain ⟨different, absent⟩ := List.ne_and_not_mem_of_not_mem_cons isOther
    exact (ih further absent).trans (Slots.get?_set_of_ne different)

/-- The elements of a list give the fields their values in order. -/
private theorem strings_of_scanElements {index : Nat} {slots filled : Slots} {fields : List Field}
    {behind : List Char} {message : α} (distinct : fields.Nodup)
    (values : ∀ field ∈ fields, filled.get? field = some (format.value message field))
    (scanned : scanElements format index slots fields text = .ok (filled, behind))
    (ended : scanListEnd behind = .ok rest) :
    Strings (index == 0) text (fields.map fun field => (format.value message field).toList)
      rest := by
  induction fields generalizing index slots text with
  | nil =>
    cases scanned
    obtain ⟨blanks, areBlanks, rfl⟩ := scanListEnd_eq_ok_iff.mp ended
    exact .close areBlanks
  | cons field later ih =>
    obtain ⟨isNew, distinctLater⟩ := List.nodup_cons.mp distinct
    obtain ⟨before, quoted, value, _, rfl, leads, spelled, further⟩ :=
      exists_item_of_scanElements scanned
    have strings := ih distinctLater (fun other member => values other (.tail _ member)) further
    have taken := values field List.mem_cons_self
    rw [scanElements_get? further isNew, Slots.get?_set_self, Option.some.injEq] at taken
    rw [List.map_cons, ← taken]
    exact .item leads spelled strings

private theorem scanElements_of_strings {index : Nat} {slots : Slots} {fields : List Field}
    {message : α} (strings : Strings (index == 0) text
      (fields.map fun field => (format.value message field).toList) rest) :
    ∃ behind, scanElements format index slots fields text =
      .ok (format.fill message slots fields, behind) ∧ scanListEnd behind = .ok rest := by
  induction fields generalizing index slots text with
  | nil =>
    cases strings with
    | close areBlanks => exact ⟨_, rfl, scanListEnd_eq_ok_iff.mpr ⟨_, areBlanks, rfl⟩⟩
  | cons field later ih =>
    cases strings with
    | item leads spelled strings =>
      rw [scanElements_item leads spelled]
      exact ih strings

/-! ## Scanning records -/

/-- A record is scanned just where the grammar has it. -/
theorem scanRecord_eq_ok_iff (exact : format.Exact) {message : α} :
    scanRecord format text = .ok (message, rest) ↔ format.Records text message rest := by
  constructor
  · intro scanned
    obtain ⟨blanks, areBlanks, parts⟩ := exists_blanks text
    unfold scanRecord at scanned
    split at scanned
    · cases scanned
    · rename_i front
      rw [parts, front]
      split at scanned
      · rename_i brace
        obtain ⟨members, filled, areMembers, fills, built⟩ := members_of_scanMembers scanned
        rw [brace]
        exact .object areBlanks areMembers ((exists_fills_iff exact).mp ⟨filled, fills, built⟩)
      · split at scanned
        · rename_i bracket
          split at scanned
          · cases scanned
          · rename_i elements
            split at scanned
            · cases scanned
            · rename_i ended
              obtain ⟨built, rfl⟩ := buildAt_eq_ok_iff.mp scanned
              have values := (exact.made _ _).mp built
              rw [bracket]
              exact .list areBlanks (strings_of_scanElements exact.distinct values elements ended)
        · exact absurd scanned (refuse_ne_ok _ _ _ _)
  · rintro (⟨areBlanks, areMembers, once⟩ | ⟨areBlanks, strings⟩)
    · obtain ⟨filled, fills, built⟩ := (exists_fills_iff exact).mpr once
      have brace : isBlank '\x7b' = false := rfl
      simp only [scanRecord, skipBlank_append areBlanks, skipBlank_cons brace, if_true]
      exact scanMembers_of_members areMembers fills built
    · obtain ⟨behind, elements, ended⟩ :=
        @scanElements_of_strings _ _ _ _ 0 {} _ _ strings
      have bracket : isBlank '[' = false := rfl
      simp only [scanRecord, skipBlank_append areBlanks, skipBlank_cons bracket, Char.reduceEq,
        if_true, if_false, elements, ended]
      exact buildAt_eq_ok_iff.mpr ⟨exact.builds message, rfl⟩

/-- A line is decoded just if a record stands on it and nothing else. -/
theorem decodeLine_eq_ok_iff (exact : format.Exact) {message : α} :
    decodeLine format text = .ok message ↔ format.IsMessage text message := by
  constructor
  · intro decoded
    unfold decodeLine at decoded
    split at decoded
    · cases decoded
    · rename_i scanned
      split at decoded
      · rename_i nothing
        cases decoded
        exact ⟨_, (scanRecord_eq_ok_iff exact).mp scanned, isBlanks_of_skipBlank nothing⟩
      · simp only [failAtNext] at decoded
        split at decoded <;> cases decoded
  · rintro ⟨behind, records, areBlanks⟩
    have nothing : skipBlank behind = [] := by
      rw [← List.append_nil behind, skipBlank_append areBlanks]
      rfl
    simp only [decodeLine, (scanRecord_eq_ok_iff exact).mpr records, nothing]

end Members

end ChatHub.Wire
