import ChatHub.Proofs.Wire.Grammar
import ChatHub.Wire.Writing
/-!
A message that was written as an object is decoded as that message, whatever characters its fields
have. This holds of every format whose fields all have different names and fill its record.
-/

set_option autoImplicit false

namespace ChatHub.Wire

open Json

/-! ## Fields and slots -/

theorem Field.eq_of_name_eq {first second : Field} (same : first.name = second.name) :
    first = second := by
  cases first <;> cases second <;> simp [name] at same ⊢

theorem Slots.get?_empty (field : Field) : ({} : Slots).get? field = none := by
  cases field <;> rfl

theorem Slots.get?_set_of_ne {slots : Slots} {field other : Field} {value : String}
    (different : other ≠ field) : (slots.set field value).get? other = slots.get? other := by
  cases field <;> cases other <;> simp [get?, set] at different ⊢

/-- The slots after the given fields of a message. -/
def Format.fill {α : Type} (format : Format α) (message : α) (slots : Slots)
    (fields : List Field) : Slots :=
  fields.foldl (fun slots field => slots.set field (format.value message field)) slots

/-- A format that reads back what it writes: no field occurs twice, and the fields of a message
make that message. -/
structure Format.Lawful {α : Type} (format : Format α) : Prop where
  distinct : format.fields.Nodup
  builds : ∀ message : α, format.build (format.fill message {} format.fields) = .ok message

theorem inboundFormat_lawful : inboundFormat.Lawful where
  distinct := by decide
  builds _ := rfl

theorem stampedFormat_lawful : stampedFormat.Lawful where
  distinct := by decide
  builds _ := rfl

section Reading

variable {α : Type} {format : Format α} {slots filled : Slots} {text rest : List Char}

/-- A field is found by its name. -/
theorem Format.field?_name {field : Field} (known : field ∈ format.fields) :
    format.field? field.name.toList = some field := by
  cases found : format.field? field.name.toList with
  | none =>
    have unnamed := List.find?_eq_none.mp found field known
    simp at unnamed
  | some other =>
    have named := List.find?_some found
    have sameName : other.name = field.name := String.toList_inj.mp (by simpa using named)
    rw [Field.eq_of_name_eq sameName]

/-! ## Members -/

theorem refuse_ne_ok {β : Type} (expected : String) (first : Char) (rest : List Char) (result : β) :
    refuse expected first rest ≠ .ok result := by
  unfold refuse
  simp only [failHere, failAtNext]
  repeat' split
  all_goals simp

private theorem scanString_encode (value : String) (rest : List Char) :
    scanString (Quoted.encode value.toList ++ rest) = .ok (value, rest) := by
  have quoted := Quoted.scan_encode value.toList rest
  simp [scanString, Quoted.encode, skipBlank, isBlank, quoted]

private theorem renderMember_append (field : Field) (value : String) (rest : List Char) :
    renderMember field value ++ rest =
      '"' :: (field.name.toList.flatMap Quoted.encodeChar ++
        '"' :: ':' :: (Quoted.encode value.toList ++ rest)) := by
  simp [renderMember, Quoted.encode]

private theorem scanMember_render {field : Field} (known : field ∈ format.fields)
    (unset : slots.get? field = none) (value : String) (rest : List Char) :
    scanMember format slots (field.name.toList.flatMap Quoted.encodeChar ++
      '"' :: ':' :: (Quoted.encode value.toList ++ rest)) =
        .ok (slots.set field value, rest) := by
  have colon : ∀ behind, skipColon (':' :: behind) = .ok behind := fun _ => rfl
  simp only [scanMember, Quoted.scan_encode, Format.field?_name known, unset, Option.isSome_none,
    Bool.false_eq_true, if_false, colon, scanString_encode]

theorem scanMembers_close {isFirst : Bool} {slots : Slots} {blanks : List Char}
    (areBlanks : IsBlanks blanks) :
    scanMembers format isFirst slots (blanks ++ '\x7d' :: rest) = buildAt format slots rest := by
  have front : skipBlank (blanks ++ '\x7d' :: rest) = '\x7d' :: rest := by
    rw [skipBlank_append areBlanks, skipBlank_cons rfl]
  rw [scanMembers.eq_def]
  grind

theorem scanMembers_item {isFirst : Bool} {before : List Char} {slots filled : Slots}
    (leads : Leads isFirst before) (member : scanMember format slots text = .ok (filled, rest)) :
    scanMembers format isFirst slots (before ++ '"' :: text) =
      scanMembers format false filled rest := by
  cases leads with
  | first areBlanks =>
    have front : skipBlank (before ++ '"' :: text) = '"' :: text := by
      rw [skipBlank_append areBlanks, skipBlank_cons rfl]
    rw [scanMembers.eq_def]
    grind
  | @later before blanks areBefore areBlanks =>
    have comma : skipBlank (before ++ ',' :: blanks ++ '"' :: text) =
        ',' :: (blanks ++ '"' :: text) := by
      rw [List.append_assoc, List.cons_append, skipBlank_append areBefore, skipBlank_cons rfl]
    have front : skipBlank (blanks ++ '"' :: text) = '"' :: text := by
      rw [skipBlank_append areBlanks, skipBlank_cons rfl]
    rw [scanMembers.eq_def]
    grind

/-! ## Objects -/

theorem renderMembers_cons (field : Field) (value : String) (rest : List (Field × String)) :
    renderMembers ((field, value) :: rest) =
      renderMember field value ++
        rest.flatMap fun member => ',' :: renderMember member.1 member.2 := by
  induction rest generalizing field value with
  | nil => simp [renderMembers]
  | cons next later ih => simp [renderMembers, ih]

/-- Members behind the first, up to the closing brace. -/
theorem scanMembers_render (message : α) (fields : List Field) (slots : Slots)
    (known : ∀ field ∈ fields, field ∈ format.fields) (distinct : fields.Nodup)
    (unset : ∀ field ∈ fields, slots.get? field = none) (rest : List Char) :
    scanMembers format false slots
        ((fields.flatMap fun field => ',' :: renderMember field (format.value message field)) ++
          '\x7d' :: rest) =
      buildAt format (format.fill message slots fields) rest := by
  induction fields generalizing slots with
  | nil => exact @scanMembers_close _ _ rest false _ [] isBlanks_nil
  | cons field later ih =>
    obtain ⟨isNew, distinctLater⟩ := List.nodup_cons.mp distinct
    rw [List.flatMap_cons, List.cons_append, List.cons_append, List.append_assoc,
      renderMember_append]
    have member := scanMember_render (known field List.mem_cons_self)
      (unset field List.mem_cons_self) (format.value message field)
      ((later.flatMap fun field => ',' :: renderMember field (format.value message field)) ++
        '\x7d' :: rest)
    refine (scanMembers_item (.later isBlanks_nil isBlanks_nil) member).trans ?_
    refine ih _ (fun other member => known other (List.mem_cons_of_mem _ member)) distinctLater
      fun other member => ?_
    have different : other ≠ field := fun same => isNew (same ▸ member)
    rw [Slots.get?_set_of_ne different]
    exact unset other (List.mem_cons_of_mem _ member)

theorem scanRecord_render (lawful : format.Lawful) (message : α) (rest : List Char) :
    scanRecord format (format.render message ++ rest) = .ok (message, rest) := by
  have brace : ∀ behind, skipBlank ('\x7b' :: behind) = '\x7b' :: behind := fun _ => rfl
  have built : ∀ slots, slots = format.fill message {} format.fields →
      buildAt format slots rest = .ok (message, rest) := by
    rintro _ rfl
    simp only [buildAt, lawful.builds]
  simp only [scanRecord, Format.render, List.cons_append, brace, if_true, List.append_assoc,
    List.nil_append]
  cases fields : format.fields with
  | nil =>
    rw [List.map_nil, renderMembers, List.nil_append]
    refine (@scanMembers_close _ _ rest true _ [] isBlanks_nil).trans ?_
    exact built _ (by rw [fields]; rfl)
  | cons field later =>
    have distinct := lawful.distinct
    rw [fields] at distinct
    obtain ⟨isNew, distinctLater⟩ := List.nodup_cons.mp distinct
    have known : ∀ other ∈ field :: later, other ∈ format.fields := fun _ member => fields ▸ member
    rw [List.map_cons, renderMembers_cons, List.append_assoc, renderMember_append,
      List.flatMap_map]
    have member := scanMember_render (known field List.mem_cons_self) (Slots.get?_empty field)
      (format.value message field)
      ((later.flatMap fun field => ',' :: renderMember field (format.value message field)) ++
        '\x7d' :: rest)
    refine (scanMembers_item (.first isBlanks_nil) member).trans ?_
    rw [scanMembers_render message later _
      (fun other member => known other (List.mem_cons_of_mem _ member)) distinctLater]
    · exact built _ (by rw [fields]; rfl)
    · intro other member
      have different : other ≠ field := fun same => isNew (same ▸ member)
      rw [Slots.get?_set_of_ne different]
      exact Slots.get?_empty other

/-- Decoding gives back every message that was written as an object. -/
theorem decodeLine_render (lawful : format.Lawful) (message : α) :
    decodeLine format (format.render message) = .ok message := by
  have scanned := scanRecord_render lawful message []
  rw [List.append_nil] at scanned
  simp only [decodeLine, scanned]
  rfl

end Reading

end ChatHub.Wire
