import ChatHub.Proofs.Json.Grammar
import ChatHub.Wire.Line
/-!
The grammar of records. An object holds members with any names, separated by commas, and each field
stands in it once; a list holds the fields alone, in their order. What stands behind a record has
no part in it, and an object's members can be told in one way only.
-/

set_option autoImplicit false

namespace ChatHub.Wire

open Json

/-! ## Objects and lists -/

/-- A member of an object: what its name says, and its value as it was written. -/
structure Member where
  name : List Char
  value : List Char
  deriving DecidableEq, Repr

/-- A member from its name on. -/
inductive IsMember : List Char → Member → List Char → Prop where
  | mk {named name between blanks value rest : List Char} :
      Spells named name (between ++ ':' :: (blanks ++ (value ++ rest))) → IsBlanks between →
      IsBlanks blanks → Derives .value (value ++ rest) rest →
      IsMember ('"' :: named) ⟨name, value⟩ rest

/-- What stands in front of an item: white space, and a comma if an item stands before it. -/
inductive Leads : Bool → List Char → Prop where
  | first {blanks : List Char} : IsBlanks blanks → Leads true blanks
  | later {before blanks : List Char} :
      IsBlanks before → IsBlanks blanks → Leads false (before ++ ',' :: blanks)

/-- The members from behind an opening brace, or from behind a member, through to the closing
brace. -/
inductive Members : Bool → List Char → List Member → List Char → Prop where
  | close {isFirst : Bool} {blanks rest : List Char} :
      IsBlanks blanks → Members isFirst (blanks ++ '\x7d' :: rest) [] rest
  | item {isFirst : Bool} {before text behind rest : List Char} {member : Member}
      {members : List Member} :
      Leads isFirst before → IsMember text member behind → Members false behind members rest →
      Members isFirst (before ++ text) (member :: members) rest

/-- Strings alone, from behind an opening bracket or from behind a string, through to the closing
bracket. -/
inductive Strings : Bool → List Char → List (List Char) → List Char → Prop where
  | close {isFirst : Bool} {blanks rest : List Char} :
      IsBlanks blanks → Strings isFirst (blanks ++ ']' :: rest) [] rest
  | item {isFirst : Bool} {before text string behind rest : List Char}
      {strings : List (List Char)} :
      Leads isFirst before → Spells text string behind → Strings false behind strings rest →
      Strings isFirst (before ++ '"' :: text) (string :: strings) rest

def named (members : List Member) (name : String) : List Member :=
  members.filter fun member => member.name == name.toList

/-- One member alone has this name, and its value is a string that says this. -/
def Once (members : List Member) (name value : String) : Prop :=
  ∃ quoted, named members name = [⟨name.toList, '"' :: quoted⟩] ∧ Spells quoted value.toList []

/-- A record in front of a text, in either of its two forms. -/
inductive Format.Records {α : Type} (format : Format α) : List Char → α → List Char → Prop where
  | object {blanks inside rest : List Char} {members : List Member} {message : α} :
      IsBlanks blanks → Members true inside members rest →
      (∀ field ∈ format.fields, Once members field.name (format.value message field)) →
      format.Records (blanks ++ '\x7b' :: inside) message rest
  | list {blanks inside rest : List Char} {message : α} :
      IsBlanks blanks →
      Strings true inside (format.fields.map fun field => (format.value message field).toList)
        rest →
      format.Records (blanks ++ '[' :: inside) message rest

/-- A line with a record on it, and nothing else but white space. -/
def Format.IsMessage {α : Type} (format : Format α) (line : List Char) (message : α) : Prop :=
  ∃ behind, format.Records line message behind ∧ IsBlanks behind

section Grammar

variable {text rest : List Char}

theorem Leads.endsNumber {before : List Char} (leads : Leads false before) (text : List Char) :
    EndsNumber (before ++ text) := by
  cases leads with
  | later areBefore =>
    rw [List.append_assoc]
    exact endsNumber_mark areBefore (by decide) _

theorem Members.endsNumber {members : List Member} (areMembers : Members false text members rest) :
    EndsNumber text := by
  cases areMembers with
  | close areBlanks => exact endsNumber_mark areBlanks (by decide) _
  | item leads => exact leads.endsNumber _

/-! ## More text behind -/

theorem IsMember.append {member : Member} (isMember : IsMember text member rest)
    (more : List Char) : IsMember (text ++ more) member (rest ++ more) := by
  cases isMember with
  | mk spelled between blanks derives =>
    have named := spelled.append more
    have value := derives.append more
    simp only [List.append_assoc, List.cons_append] at named value
    exact .mk named between blanks value

theorem Members.append {isFirst : Bool} {members : List Member}
    (areMembers : Members isFirst text members rest) (more : List Char) :
    Members isFirst (text ++ more) members (rest ++ more) := by
  induction areMembers with
  | close areBlanks => simpa using Members.close areBlanks
  | item leads isMember _ ih =>
    rw [List.append_assoc]
    exact .item leads (isMember.append more) ih

theorem Strings.append {isFirst : Bool} {strings : List (List Char)}
    (areStrings : Strings isFirst text strings rest) (more : List Char) :
    Strings isFirst (text ++ more) strings (rest ++ more) := by
  induction areStrings with
  | close areBlanks => simpa using Strings.close areBlanks
  | item leads spelled _ ih =>
    rw [List.append_assoc]
    exact .item leads (spelled.append more) ih

theorem Format.Records.append {α : Type} {format : Format α} {message : α}
    (records : format.Records text message rest) (more : List Char) :
    format.Records (text ++ more) message (rest ++ more) := by
  cases records with
  | object areBlanks areMembers once =>
    rw [List.append_assoc]
    exact .object areBlanks (areMembers.append more) once
  | list areBlanks strings =>
    rw [List.append_assoc]
    exact .list areBlanks (strings.append more)

/-! ## One reading -/

theorem IsMember.unique {member other : Member} {behind : List Char}
    (first : IsMember text member rest) (second : IsMember text other behind)
    (ends : EndsNumber rest) (alsoEnds : EndsNumber behind) : member = other ∧ rest = behind := by
  obtain ⟨spelled, areBetween, areBlanks, derives⟩ := first
  generalize whole : '"' :: _ = text at second
  obtain ⟨again, alsoBetween, alsoBlanks, value⟩ := second
  cases whole
  obtain ⟨rfl, behindName⟩ := spelled.unique again
  have colon := congrArg skipColon behindName
  rw [skipColon_append areBetween, skipColon_append alsoBetween, Except.ok.injEq] at colon
  have skipped := skipValue_of_derives (.element areBlanks derives) ends
  rw [colon, skipValue_of_derives (.element alsoBlanks value) alsoEnds,
    Except.ok.injEq] at skipped
  subst skipped
  have front := congrArg skipBlank colon
  rw [skipBlank_append areBlanks, skipBlank_append alsoBlanks, derives.skipBlank_eq,
    value.skipBlank_eq] at front
  rw [List.append_cancel_right front]
  exact ⟨rfl, rfl⟩

theorem IsMember.skipBlank_eq {member : Member} (isMember : IsMember text member rest) :
    skipBlank text = text ∧ ∃ behind, text = '"' :: behind := by
  cases isMember
  exact ⟨skipBlank_cons rfl _, _, rfl⟩

theorem Leads.unique {isFirst : Bool} {before leading other : List Char}
    (first : Leads isFirst before) (second : Leads isFirst leading)
    (noBlank : skipBlank text = text) (alsoNoBlank : skipBlank other = other)
    (same : before ++ text = leading ++ other) : text = other := by
  have comma : isBlank ',' = false := rfl
  cases first with
  | first areBlanks =>
    cases second with
    | first alsoBlanks =>
      have front := congrArg skipBlank same
      rwa [skipBlank_append areBlanks, skipBlank_append alsoBlanks, noBlank, alsoNoBlank] at front
  | later areBefore areBlanks =>
    cases second with
    | later alsoBefore alsoBlanks =>
      have front := congrArg skipBlank same
      simp only [List.append_assoc, List.cons_append, skipBlank_append areBefore,
        skipBlank_append alsoBefore, skipBlank_cons comma, List.cons.injEq, true_and] at front
      have further := congrArg skipBlank front
      rwa [skipBlank_append areBlanks, skipBlank_append alsoBlanks, noBlank, alsoNoBlank]
        at further

/-- The end of an object is no member. -/
theorem Leads.ne_close {isFirst : Bool} {before blanks : List Char} (leads : Leads isFirst before)
    (areBlanks : IsBlanks blanks) (behind : List Char) :
    before ++ '"' :: text ≠ blanks ++ '\x7d' :: behind := by
  intro same
  have front := congrArg skipBlank same
  rw [skipBlank_append areBlanks, skipBlank_cons rfl] at front
  cases leads with
  | first alsoBlanks =>
    rw [skipBlank_append alsoBlanks, skipBlank_cons rfl] at front
    cases front
  | later areBefore =>
    rw [List.append_assoc, skipBlank_append areBefore, List.cons_append, skipBlank_cons rfl]
      at front
    cases front

/-- An object has one list of members. -/
theorem Members.unique {isFirst : Bool} {members others : List Member} {behind : List Char}
    (first : Members isFirst text members rest) (second : Members isFirst text others behind) :
    members = others ∧ rest = behind := by
  induction first generalizing others with
  | @close isFirst blanks rest areBlanks =>
    generalize whole : blanks ++ '\x7d' :: rest = text at second
    cases second with
    | close alsoBlanks =>
      have front := congrArg skipBlank whole
      rw [skipBlank_append areBlanks, skipBlank_append alsoBlanks, skipBlank_cons rfl,
        skipBlank_cons rfl] at front
      exact ⟨rfl, (List.cons.inj front).2⟩
    | item leads isMember =>
      obtain ⟨_, _, rfl⟩ := isMember.skipBlank_eq
      exact absurd whole.symm (leads.ne_close areBlanks _)
  | @item isFirst before text _ rest member members leads isMember later ih =>
    generalize whole : before ++ text = text at second
    cases second with
    | close alsoBlanks =>
      obtain ⟨_, _, rfl⟩ := isMember.skipBlank_eq
      exact absurd whole (leads.ne_close alsoBlanks _)
    | item alsoLeads alsoMember alsoLater =>
      have same := leads.unique alsoLeads isMember.skipBlank_eq.1 alsoMember.skipBlank_eq.1 whole
      subst same
      obtain ⟨rfl, rfl⟩ := isMember.unique alsoMember later.endsNumber alsoLater.endsNumber
      obtain ⟨rfl, rfl⟩ := ih alsoLater
      exact ⟨rfl, rfl⟩

end Grammar

end ChatHub.Wire
