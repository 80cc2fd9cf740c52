import ChatHub.CommandLine.Form
import Mathlib.Data.List.Perm.Basic
/-!
Command lines as pieces: positional arguments, options in either spelling, and switches. Each piece
updates the draft of a form, and updates that do not touch what others touch may come in any order.
Main statements: `draft_takeAll`, which reads pieces off as updates, and `updates_perm` and
`run_perm`, by which only the order of the positional arguments counts.
-/

set_option autoImplicit false

namespace ChatHub.CommandLine

/-! ## Pieces and their words -/

/-- What belongs together on a command line. The value of an option is attached to its name with an
equals sign, or it is the next word. -/
inductive Piece where
  | positional (text : String)
  | option (name value : String) (attached : Bool)
  | switch (name : String)
  deriving DecidableEq, Repr

namespace Piece

def words : Piece → List String
  | .positional text => [text]
  | .option name value true => ["--" ++ name ++ "=" ++ value]
  | .option name value false => ["--" ++ name, value]
  | .switch name => ["--" ++ name]

def positional? : Piece → Option String
  | .positional text => some text
  | .option _ _ _ | .switch _ => none

/-- The words that are texts of their own. -/
def texts : Piece → List String
  | .positional text | .option _ text false => [text]
  | .option _ _ true | .switch _ => []

/-- The name of an option or a switch, and the value of an option. -/
def named? : Piece → Option (String × Option String)
  | .positional _ => none
  | .option name value _ => some (name, some value)
  | .switch name => some (name, none)

end Piece

/-- A text that is no argument by its looks. -/
def IsWord (text : String) : Prop :=
  Token.ofString text = .word

/-- A name as it stands behind two dashes. -/
structure IsName (name : String) : Prop where
  nonempty : name.toList ≠ []
  noEquals : '=' ∉ name.toList

theorem isWord_of_head?_ne {text : String} (noDash : text.toList.head? ≠ some '-') :
    IsWord text := by
  unfold IsWord Token.ofString
  split
  · rename_i characters
    simp [characters] at noDash
  · rename_i characters
    simp [characters] at noDash
  · rename_i characters
    simp [characters] at noDash
  · rfl

theorem IsWord.ne_escape {text : String} (isWord : IsWord text) : text ≠ "--" := by
  rintro rfl
  cases isWord

private theorem splitValue_name {name : List Char} (noEquals : '=' ∉ name) :
    splitValue name = (String.ofList name, none) := by
  have whole : name.takeWhile (· != '=') = name := by
    have all : ∀ character ∈ name, (character != '=') = true := fun character member =>
      bne_iff_ne.mpr fun same => noEquals (same ▸ member)
    simpa using @List.takeWhile_append_of_pos _ _ name [] all
  simp [splitValue, whole]

private theorem splitValue_value {name : List Char} (noEquals : '=' ∉ name) (value : List Char) :
    splitValue (name ++ '=' :: value) = (String.ofList name, some (String.ofList value)) := by
  have front : (name ++ '=' :: value).takeWhile (· != '=') = name := by
    rw [List.takeWhile_append_of_pos]
    · simp
    · rintro character member
      exact bne_iff_ne.mpr fun same => noEquals (same ▸ member)
  simp [splitValue, front]

namespace Token

private theorem ofString_dashes {first : Char} {rest : List Char} :
    Token.ofString (String.ofList ('-' :: '-' :: first :: rest)) =
      .long (splitValue (first :: rest)).1 (splitValue (first :: rest)).2 := by
  simp [Token.ofString]

theorem ofString_name {name : String} (isName : IsName name) :
    Token.ofString ("--" ++ name) = .long name none := by
  obtain ⟨first, rest, parts⟩ := List.exists_cons_of_ne_nil isName.nonempty
  have whole : "--" ++ name = String.ofList ('-' :: '-' :: first :: rest) := by
    rw [← parts]
    exact String.toList_injective (by simp)
  rw [whole, ofString_dashes, ← parts, splitValue_name isName.noEquals, String.ofList_toList]

theorem ofString_attached {name : String} (isName : IsName name) (value : String) :
    Token.ofString ("--" ++ name ++ "=" ++ value) = .long name (some value) := by
  obtain ⟨first, rest, parts⟩ := List.exists_cons_of_ne_nil isName.nonempty
  have whole : "--" ++ name ++ "=" ++ value =
      String.ofList ('-' :: '-' :: first :: (rest ++ '=' :: value.toList)) := by
    rw [← List.cons_append, ← parts]
    exact String.toList_injective (by simp)
  rw [whole, ofString_dashes, ← List.cons_append, ← parts, splitValue_value isName.noEquals,
    String.ofList_toList, String.ofList_toList]

end Token

theorem IsName.ne_escape {name : String} (isName : IsName name) : "--" ++ name ≠ "--" := by
  intro same
  have token := Token.ofString_name isName
  rw [same] at token
  cases token

/-! ## Updates of a draft -/

section Updates

variable {σ : Type}

/-- Puts a text into a slot that is not filled yet. -/
def Slot.put? (slot : Slot σ) (text : String) (draft : σ) : Option σ :=
  if slot.filled draft then none else (slot.fill text draft).toOption

def Switch.put? (switch : Switch σ) (draft : σ) : Option σ :=
  if switch.isOn draft then none else some (switch.turnOn draft)

/-- Does several updates one after the other. -/
def run (updates : List (σ → Option σ)) (draft? : Option σ) : Option σ :=
  updates.foldl Option.bind draft?

theorem run_none (updates : List (σ → Option σ)) : run updates none = none := by
  induction updates with
  | nil => rfl
  | cons update rest ih => exact ih

theorem run_append (earlier later : List (σ → Option σ)) (draft? : Option σ) :
    run (earlier ++ later) draft? = run later (run earlier draft?) :=
  List.foldl_append

/-- Updates that may change places. -/
def Independent (one other : σ → Option σ) : Prop :=
  ∀ draft, (one draft).bind other = (other draft).bind one

theorem Independent.symm {one other : σ → Option σ} (independent : Independent one other) :
    Independent other one :=
  fun draft => (independent draft).symm

/-- Updates that do not touch what the others touch may come in any order. -/
theorem run_perm {updates others : List (σ → Option σ)} (perm : updates.Perm others)
    (independent : updates.Pairwise Independent) (draft? : Option σ) :
    run updates draft? = run others draft? := by
  induction perm generalizing draft? with
  | nil => rfl
  | cons update _ ih => exact ih independent.of_cons (draft?.bind update)
  | swap one other rest =>
    cases draft? with
    | none => rfl
    | some draft =>
      have apart := (List.pairwise_cons.mp independent).1 one List.mem_cons_self
      exact congrArg (run rest) (apart draft)
  | trans first _ ihFirst ihSecond =>
    have later := (first.pairwise_iff fun apart => Independent.symm apart).mp independent
    exact (ihFirst independent draft?).trans (ihSecond later draft?)

end Updates

namespace Form

variable {σ α : Type} (form : Form σ α)

/-- What an option or a switch does to a draft. -/
def given? : String × Option String → σ → Option σ
  | (name, some value), draft =>
    (form.options.lookup name).bind fun slot => slot.put? value draft
  | (name, none), draft => (form.switches.lookup name).bind fun switch => switch.put? draft

/-- What a piece does to a draft, a positional one in the first of the slots. -/
def update (slots : List (Slot σ)) : Piece → σ → Option σ
  | .positional text, draft => slots.head?.bind fun slot => slot.put? text draft
  | .option name value _, draft => form.given? (name, some value) draft
  | .switch name, draft => form.given? (name, none) draft

/-- The slots that are left behind a piece. -/
def slotsAfter (slots : List (Slot σ)) : Piece → List (Slot σ)
  | .positional _ => slots.tail
  | .option _ _ _ | .switch _ => slots

/-- What pieces do to a draft, one after the other. -/
def updates : List (Slot σ) → List Piece → List (σ → Option σ)
  | _, [] => []
  | slots, piece :: rest => form.update slots piece :: updates (slotsAfter slots piece) rest

/-- Only the positional arguments have to keep their order. -/
theorem updates_perm {slots : List (Slot σ)} {pieces : List Piece}
    (enough : (pieces.filterMap Piece.positional?).length ≤ slots.length) :
    (form.updates slots pieces).Perm
      (List.zipWith Slot.put? slots (pieces.filterMap Piece.positional?) ++
        (pieces.filterMap Piece.named?).map form.given?) := by
  induction pieces generalizing slots with
  | nil => simp [updates]
  | cons piece rest ih =>
    cases piece with
    | positional text =>
      cases slots with
      | nil => simp [Piece.positional?] at enough
      | cons slot slots =>
        have fewer : (rest.filterMap Piece.positional?).length ≤ slots.length := by
          simpa [Piece.positional?, List.filterMap_cons] using enough
        simp only [updates, Piece.positional?, Piece.named?, List.filterMap_cons,
          List.zipWith_cons_cons, List.cons_append]
        exact (ih fewer).cons _
    | option name value attached =>
      simp only [Piece.positional?, List.filterMap_cons] at enough
      simp only [updates, Piece.positional?, Piece.named?, List.filterMap_cons, List.map_cons]
      exact ((ih enough).cons _).trans List.perm_middle.symm
    | switch name =>
      simp only [Piece.positional?, List.filterMap_cons] at enough
      simp only [updates, Piece.positional?, Piece.named?, List.filterMap_cons, List.map_cons]
      exact ((ih enough).cons _).trans List.perm_middle.symm

end Form

/-! ## Reading pieces -/

/-- Whether a slot was named that still lacks its value. -/
def Progress.waits {σ : Type} (progress : Progress σ) : Bool :=
  match progress.pending with
  | some ⟨_, none⟩ => true
  | _ => false

namespace Form

variable {σ α : Type} {form : Form σ α} {progress next : Progress σ}

/-- The draft once the slot named last is filled too. -/
def settled? (form : Form σ α) (progress : Progress σ) : Option σ :=
  (form.settle progress).toOption.map Progress.draft

private theorem settle_of_idle (idle : progress.pending = none) :
    form.settle progress = .ok progress := by
  simp [settle, idle]

theorem settle_spec (settled : form.settle progress = .ok next) :
    next.pending = none ∧ next.positionals = progress.positionals ∧ progress.waits = false := by
  unfold settle at settled
  split at settled
  · rename_i idle
    cases settled
    exact ⟨idle, rfl, by simp [Progress.waits, idle]⟩
  · cases settled
  · rename_i open_
    split at settled
    · cases settled
    · split at settled
      · cases settled
      · cases settled
        exact ⟨rfl, rfl, by simp [Progress.waits, open_]⟩

theorem settled?_of_ok (settled : form.settle progress = .ok next) :
    form.settled? progress = some next.draft := by
  simp [settled?, settled, Except.toOption]

private theorem settled?_of_idle (idle : progress.pending = none) :
    form.settled? progress = some progress.draft :=
  settled?_of_ok (settle_of_idle idle)

theorem settled?_of_error {refusal : Refusal} (refused : form.settle progress = .error refusal) :
    form.settled? progress = none := by
  simp [settled?, refused, Except.toOption]

theorem settled?_named {slot : Slot σ} {value : String}
    (named : progress.pending = some ⟨slot, some value⟩) :
    form.settled? progress = slot.put? value progress.draft := by
  simp only [settled?, settle, named, Slot.put?]
  split
  · rfl
  · cases slot.fill value progress.draft with
    | error fault => rfl
    | ok draft => rfl

/-- A piece whose name is one of the form's. -/
def Knows (form : Form σ α) : Piece → Prop
  | .positional _ => True
  | .option name _ _ => IsName name ∧ ∃ slot, form.options.lookup name = some slot
  | .switch name =>
    IsName name ∧ form.options.lookup name = none ∧
      ∃ switch, form.switches.lookup name = some switch

/-- A piece that is read as one: its texts are told from names by their looks. -/
structure Reads (form : Form σ α) (piece : Piece) : Prop where
  knows : form.Knows piece
  isWord : ∀ text ∈ piece.texts, IsWord text

/-- What reading a piece comes to, with the words behind it: it has been read and may still have to
be settled, or it has been refused. -/
inductive Reading (form : Form σ α) (progress : Progress σ) (piece : Piece)
    (rest : List String) : Prop where
  | goesOn (next : Progress σ) :
      next.waits = false → next.positionals = slotsAfter progress.positionals piece →
        form.takeAll false (piece.words ++ rest) progress = form.takeAll false rest next →
          form.settled? next =
            (form.settled? progress).bind (form.update progress.positionals piece) →
              Reading form progress piece rest
  | refused :
      (form.takeAll false (piece.words ++ rest) progress).toOption = none →
        (form.settled? progress).bind (form.update progress.positionals piece) = none →
          Reading form progress piece rest

private theorem reading_positional {text : String} (isWord : IsWord text)
    (idle : progress.waits = false)
    (rest : List String) : form.Reading progress (.positional text) rest := by
  have word : form.takeAll false (text :: rest) progress =
      (form.takePositional text progress).bind (form.takeAll false rest) := by
    have token : Token.ofString text = .word := isWord
    have notEscape : (text == "--") = false := beq_false_of_ne isWord.ne_escape
    simp only [takeAll, take, token, notEscape]
    split
    · rename_i waiting
      simp [Progress.waits, waiting] at idle
    · rfl
  cases slots : progress.positionals with
  | nil =>
    refine .refused ((congrArg Except.toOption word).trans ?_) ?_
    · simp only [takePositional, slots]
      rfl
    · simp [update, slots]
  | cons slot left =>
    cases settled : form.settle progress with
    | error refusal =>
      refine .refused ((congrArg Except.toOption word).trans ?_) ?_
      · simp only [takePositional, slots, name, settled]
        rfl
      · simp [settled?_of_error settled]
    | ok middle =>
      refine .goesOn { middle with pending := some ⟨slot, some text⟩, positionals := left }
        rfl ?_ (word.trans ?_) ?_
      · simp [slotsAfter, slots]
      · simp only [takePositional, slots, name, settled]
        rfl
      · rw [settled?_named rfl, settled?_of_ok settled]
        simp [update, slots]

theorem takeAll_long (form : Form σ α) (progress : Progress σ) {argument longName : String}
    {value : Option String} (token : Token.ofString argument = .long longName value)
    (rest : List String) :
    form.takeAll false (argument :: rest) progress =
      (form.takeLong longName value progress).bind (form.takeAll false rest) := by
  have notEscape : (argument == "--") = false := by
    apply beq_false_of_ne
    rintro rfl
    cases token
  simp only [takeAll, take, token, notEscape]
  rfl

private theorem reading_option {longName value : String} {attached : Bool} {slot : Slot σ}
    (isName : IsName longName) (found : form.options.lookup longName = some slot)
    (isWord : attached = false → IsWord value) (rest : List String) :
    form.Reading progress (.option longName value attached) rest := by
  have updates : ∀ draft, form.update progress.positionals (.option longName value attached) draft =
      slot.put? value draft := by
    intro draft
    simp [update, given?, found]
  cases attached with
  | true =>
    have read := takeAll_long form progress
      (Token.ofString_attached isName value) rest
    cases settled : form.settle progress with
    | error refusal =>
      refine .refused ((congrArg Except.toOption read).trans ?_) ?_
      · simp only [takeLong, found, name, settled]
        rfl
      · simp [settled?_of_error settled]
    | ok middle =>
      have put : form.settled? { middle with pending := some ⟨slot, some value⟩ } =
          slot.put? value middle.draft := settled?_named rfl
      have taken : form.takeLong longName (some value) progress =
          form.settle { middle with pending := some ⟨slot, some value⟩ } := by
        simp only [takeLong, found, name, settled]
        rfl
      rw [taken] at read
      cases last : form.settle { middle with pending := some ⟨slot, some value⟩ } with
      | error refusal =>
        rw [last] at read
        refine .refused ((congrArg Except.toOption read).trans rfl) ?_
        rw [settled?_of_error last] at put
        simp [settled?_of_ok settled, updates, ← put]
      | ok next =>
        rw [last] at read
        rw [settled?_of_ok last] at put
        have idle := (settle_spec last).1
        refine .goesOn next ?_ ?_ read ?_
        · simp [Progress.waits, idle]
        · exact (settle_spec last).2.1.trans (settle_spec settled).2.1
        · rw [settled?_of_idle idle, put, settled?_of_ok settled]
          simp [updates]
  | false =>
    have word := isWord rfl
    have token : Token.ofString value = .word := word
    have notEscape : (value == "--") = false := beq_false_of_ne word.ne_escape
    have read := takeAll_long form progress
      (Token.ofString_name isName) (value :: rest)
    cases settled : form.settle progress with
    | error refusal =>
      refine .refused ((congrArg Except.toOption read).trans ?_) ?_
      · simp only [takeLong, found, name, settled]
        rfl
      · simp [settled?_of_error settled]
    | ok middle =>
      refine .goesOn { middle with pending := some ⟨slot, some value⟩ }
        rfl (settle_spec settled).2.1 (read.trans ?_) ?_
      · simp only [takeLong, found, name, settled]
        simp only [bind, Except.bind, Option.isSome_none, Bool.false_eq_true, if_false, takeAll,
          take, token, notEscape]
      · rw [settled?_named rfl, settled?_of_ok settled]
        simp [updates]

private theorem reading_switch {longName : String} {switch : Switch σ} (isName : IsName longName)
    (noOption : form.options.lookup longName = none)
    (found : form.switches.lookup longName = some switch) (rest : List String) :
    form.Reading progress (.switch longName) rest := by
  have read := takeAll_long form progress (Token.ofString_name isName) rest
  have updates : ∀ draft, form.update progress.positionals (.switch longName) draft =
      switch.put? draft := by
    intro draft
    simp [update, given?, found]
  cases settled : form.settle progress with
  | error refusal =>
    refine .refused ((congrArg Except.toOption read).trans ?_) ?_
    · simp only [takeLong, noOption, found, turnOn, settled]
      rfl
    · simp [settled?_of_error settled]
  | ok middle =>
    cases isOn : switch.isOn middle.draft with
    | true =>
      refine .refused ((congrArg Except.toOption read).trans ?_) ?_
      · simp only [takeLong, noOption, found, turnOn, settled, bind, Except.bind, isOn, if_true]
        rfl
      · simp [settled?_of_ok settled, updates, Switch.put?, isOn]
    | false =>
      have idle := (settle_spec settled).1
      refine .goesOn
        { middle with
          draft := switch.turnOn middle.draft
          used := middle.used ++ [switch.label] }
        ?_ (settle_spec settled).2.1 (read.trans ?_) ?_
      · simp [Progress.waits, idle]
      · simp [takeLong, noOption, found, turnOn, settled, bind, Except.bind, isOn]
      · rw [settled?_of_ok settled]
        refine (settled?_of_idle ?_).trans ?_
        · exact idle
        · simp [updates, Switch.put?, isOn]

theorem reading {piece : Piece} (reads : form.Reads piece) (idle : progress.waits = false)
    (rest : List String) : form.Reading progress piece rest := by
  have isWord := reads.isWord
  cases piece with
  | positional text => exact reading_positional (isWord text List.mem_cons_self) idle rest
  | option longName value attached =>
    obtain ⟨isName, slot, found⟩ := reads.knows
    apply reading_option isName found
    rintro rfl
    exact isWord value List.mem_cons_self
  | switch longName =>
    obtain ⟨isName, noOption, switch, found⟩ := reads.knows
    exact reading_switch isName noOption found rest

/-- What is in the draft behind all pieces is what they put there one by one. -/
theorem draft_takeAll {pieces : List Piece} (reads : ∀ piece ∈ pieces, form.Reads piece)
    (idle : progress.waits = false) :
    (form.takeAll false (pieces.flatMap Piece.words) progress).toOption.map Progress.draft =
      run (form.updates progress.positionals pieces) (form.settled? progress) := by
  induction pieces generalizing progress with
  | nil => rfl
  | cons piece rest ih =>
    have later := fun other member => reads other (List.mem_cons_of_mem piece member)
    rw [List.flatMap_cons, updates]
    cases reading (reads piece List.mem_cons_self) idle (rest.flatMap Piece.words) with
    | goesOn next stillIdle slots read settled =>
      rw [read, ih later stillIdle, slots, settled]
      rfl
    | refused read nothing =>
      rw [read, run, List.foldl_cons, nothing]
      exact (run_none _).symm

/-- Pieces are read by what they put into the draft, whatever their order. -/
theorem parse_pieces {pieces : List Piece} (reads : ∀ piece ∈ pieces, form.Reads piece)
    (enough : (pieces.filterMap Piece.positional?).length ≤ form.positionals.length)
    {updates : List (σ → Option σ)}
    (perm : (List.zipWith Slot.put? form.positionals (pieces.filterMap Piece.positional?) ++
      (pieces.filterMap Piece.named?).map form.given?).Perm updates)
    (independent : updates.Pairwise Independent) :
    (form.parse (pieces.flatMap Piece.words)).toOption =
      (run updates (some form.blank)).bind form.finish := by
  have drafts := @draft_takeAll _ _ form { draft := form.blank, positionals := form.positionals }
    pieces reads rfl
  have same := (form.updates_perm enough).trans perm
  have apart := (same.symm.pairwise_iff fun apart => Independent.symm apart).mp independent
  rw [run_perm same apart, settled?_of_idle rfl] at drafts
  rw [← drafts]
  simp only [parse]
  cases form.takeAll false (pieces.flatMap Piece.words) _ with
  | error refusal => rfl
  | ok last =>
    simp only [bind, Except.bind, Except.toOption, Option.map_some, Option.bind_some]
    cases form.finish last.draft with
    | none => rfl
    | some command => rfl

end Form

end ChatHub.CommandLine
