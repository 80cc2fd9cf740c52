import ChatHub.Proofs.CommandLine.Pieces
/-!
Command lines whose texts look like names. An option takes the next word for its value and every
other word is positional, so that words and open options are balanced: a text that is taken for a
name leaves a positional slot empty. Main statements: `balance`, and `reads_of_parse`, by which
pieces that make a command were read as they were written.
-/

set_option autoImplicit false

namespace ChatHub.CommandLine

/-- Whether a text is taken for no name: it does not begin with two dashes. -/
def isPlain (text : String) : Bool :=
  match Token.ofString text with
  | .escape | .long _ _ => false
  | .short _ | .word => true

section Slots

variable {σ : Type}

/-- A slot into which no text goes that begins with two dashes. -/
def Slot.RefusesDashes (slot : Slot σ) : Prop :=
  ∀ text draft, isPlain text = false → slot.put? text draft = none

/-- Whatever is put into one slot, another one is as full as before. -/
def Slot.Spares (slot other : Slot σ) : Prop :=
  ∀ text draft next, slot.fill text draft = .ok next → other.filled next = other.filled draft

def Switch.Spares (switch : Switch σ) (other : Slot σ) : Prop :=
  ∀ draft, other.filled (switch.turnOn draft) = other.filled draft

end Slots

theorem bind_eq_ok {ε α β : Type} {first : Except ε α} {rest : α → Except ε β} {value : β}
    (done : first >>= rest = .ok value) :
    ∃ middle, first = .ok middle ∧ rest middle = .ok value := by
  cases first with
  | error failure => cases done
  | ok middle => exact ⟨middle, rfl, done⟩

private theorem mem_of_lookup {β : Type} {entries : List (String × β)} {key : String} {value : β}
    (found : entries.lookup key = some value) : (key, value) ∈ entries := by
  obtain ⟨earlier, later, rfl, _⟩ := List.lookup_eq_some_iff.mp found
  exact List.mem_append_right earlier List.mem_cons_self

namespace Form

variable {σ α : Type} {form : Form σ α} {progress next last : Progress σ} {argument : String}

/-- Whether an argument names an option and leaves its value to the next one. -/
def opens (form : Form σ α) (argument : String) : Bool :=
  match Token.ofString argument with
  | .long name none => (form.options.lookup name).isSome
  | _ => false

/-! ## One argument -/

private theorem name_spec {slot : Slot σ} {value : Option String}
    (named : form.name slot value progress = .ok next) :
    ∃ settled, form.settle progress = .ok settled ∧
      next = { settled with pending := some ⟨slot, value⟩ } := by
  obtain ⟨settled, ok, same⟩ := bind_eq_ok named
  exact ⟨settled, ok, (Except.ok.inj same).symm⟩

/-- A positional argument is the value of the next slot, once the slot before it is settled. -/
theorem takePositional_spec (taken : form.takePositional argument progress = .ok next) :
    ∃ slot settled, progress.positionals = slot :: next.positionals ∧
      form.settle progress = .ok settled ∧
        next = { settled with
          pending := some ⟨slot, some argument⟩, positionals := next.positionals } := by
  unfold takePositional at taken
  split at taken
  · cases taken
  · rename_i slot rest slots
    obtain ⟨_, named, taken⟩ := bind_eq_ok taken
    obtain ⟨settled, ok, rfl⟩ := name_spec named
    cases taken
    exact ⟨slot, settled, slots, ok, rfl⟩

/-- What an argument in front of any escape is taken for. -/
inductive Taken (form : Form σ α) (argument : String) (progress next : Progress σ) : Prop where
  | escape : Token.ofString argument = .escape → next = progress → Taken form argument progress next
  | option {longName : String} {value : Option String} {slot : Slot σ} {settled : Progress σ} :
      Token.ofString argument = .long longName value →
        form.options.lookup longName = some slot → form.settle progress = .ok settled →
          form.settle { settled with pending := some ⟨slot, value⟩ } = .ok next ∧ value ≠ none ∨
            next = { settled with pending := some ⟨slot, none⟩ } ∧ value = none →
              Taken form argument progress next
  | switch {longName : String} {switch : Switch σ} {settled : Progress σ} :
      Token.ofString argument = .long longName none →
        form.options.lookup longName = none → form.switches.lookup longName = some switch →
          form.settle progress = .ok settled →
            next = { settled with
              draft := switch.turnOn settled.draft, used := settled.used ++ [switch.label] } →
              Taken form argument progress next
  | value {slot : Slot σ} :
      Token.ofString argument = .word → progress.pending = some ⟨slot, none⟩ →
        next = { progress with pending := some ⟨slot, some argument⟩ } →
          Taken form argument progress next
  | positional :
      Token.ofString argument = .word → form.takePositional argument progress = .ok next →
        Taken form argument progress next

private theorem taken_long {longName : String} {value : Option String}
    (token : Token.ofString argument = .long longName value)
    (taken : form.takeLong longName value progress = .ok next) :
    Taken form argument progress next := by
  unfold takeLong at taken
  split at taken
  · rename_i slot found
    obtain ⟨_, named, taken⟩ := bind_eq_ok taken
    obtain ⟨settled, ok, rfl⟩ := name_spec named
    cases value with
    | none =>
      cases taken
      exact .option token found ok (.inr ⟨rfl, rfl⟩)
    | some text => exact .option token found ok (.inl ⟨taken, Option.some_ne_none _⟩)
  · rename_i noOption
    split at taken
    · rename_i switch found
      obtain ⟨middle, settled, taken⟩ := bind_eq_ok taken
      split at taken
      · cases taken
      · cases taken
        exact .switch token noOption found settled rfl
    · cases taken
    · split at taken
      · split at taken
        · obtain ⟨_, _, taken⟩ := bind_eq_ok taken
          cases taken
        · cases taken
      · cases taken

theorem taken_of_take (taken : form.take argument progress = .ok next) :
    Taken form argument progress next := by
  unfold take at taken
  split at taken
  · rename_i token
    cases taken
    exact .escape token rfl
  · rename_i token
    exact taken_long token taken
  · split at taken
    · obtain ⟨_, _, taken⟩ := bind_eq_ok taken
      cases taken
    · cases taken
  · rename_i token
    split at taken
    · rename_i waiting
      cases taken
      exact .value token waiting rfl
    · exact .positional token taken

/-! ## Words against open options -/

private theorem waits_of_pending {slot : Slot σ} {value : Option String}
    (pending : progress.pending = some ⟨slot, value⟩) : progress.waits = value.isNone := by
  cases value <;> simp [Progress.waits, pending]

/-- Behind an escape nothing is left open. -/
theorem settles_of_trailing {arguments : List String}
    (taken : form.takeAll true arguments progress = .ok last) :
    ∃ settled, form.settle progress = .ok settled := by
  cases arguments with
  | nil => exact ⟨last, taken⟩
  | cons argument rest =>
    obtain ⟨next, first, _⟩ := bind_eq_ok taken
    obtain ⟨_, settled, _, ok, _⟩ := takePositional_spec first
    exact ⟨settled, ok⟩

private theorem takePositional_counts (taken : form.takePositional argument progress = .ok next) :
    progress.positionals.length = next.positionals.length + 1 ∧ progress.waits = false ∧
      next.waits = false ∧ ∀ slot ∈ next.positionals, slot ∈ progress.positionals := by
  obtain ⟨slot, settled, slots, ok, parts⟩ := takePositional_spec taken
  refine ⟨by simp [slots], (settle_spec ok).2.2, ?_, ?_⟩
  · rw [parts]
    rfl
  · intro other member
    rw [slots]
    exact List.mem_cons_of_mem slot member

/-- What an argument does to the count of empty positional slots and open options. -/
theorem Taken.counts (taken : Taken form argument progress next) :
    progress.positionals.length + progress.waits.toNat + (form.opens argument).toNat ≤
        (isPlain argument).toNat + next.positionals.length + next.waits.toNat ∧
      ∀ slot ∈ next.positionals, slot ∈ progress.positionals := by
  cases taken with
  | escape token same =>
    subst same
    exact ⟨by simp [opens, isPlain, token], fun _ member => member⟩
  | @option longName value slot settled token found ok parts =>
    obtain ⟨_, slots, closed⟩ := settle_spec ok
    rcases parts with ⟨last, given⟩ | ⟨rfl, rfl⟩
    · obtain ⟨idle, same, _⟩ := settle_spec last
      have opens : form.opens argument = false := by
        cases value with
        | none => contradiction
        | some text => simp [Form.opens, token]
      have kept : next.positionals = progress.positionals := same.trans slots
      rw [kept]
      refine ⟨?_, fun _ member => member⟩
      simp only [opens, closed, Bool.toNat_false]
      omega
    · have open_ : ({ settled with pending := some ⟨slot, none⟩ } : Progress σ).waits = true := rfl
      rw [open_]
      refine ⟨?_, fun other member => slots ▸ member⟩
      simp [opens, token, found, closed, slots, isPlain]
  | switch token noOption found ok parts =>
    obtain ⟨idle, slots, closed⟩ := settle_spec ok
    subst parts
    refine ⟨?_, fun other member => slots ▸ member⟩
    simp only [opens, token, noOption, closed, slots, Option.isSome_none, Bool.toNat_false]
    omega
  | @value slot token pending parts =>
    subst parts
    refine ⟨?_, fun _ member => member⟩
    simp only [opens, isPlain, token, waits_of_pending pending, Option.isNone_none,
      Bool.toNat_true, Bool.toNat_false]
    omega
  | positional token first =>
    obtain ⟨fewer, closed, still, kept⟩ := takePositional_counts first
    refine ⟨?_, kept⟩
    simp only [opens, isPlain, token, closed, still, Bool.toNat_true, Bool.toNat_false]
    omega

/-- Open options and empty slots are met by words: of these there are enough. -/
theorem balance {trailing : Bool} {arguments : List String}
    (refuses : ∀ slot ∈ progress.positionals, slot.RefusesDashes)
    (taken : form.takeAll trailing arguments progress = .ok last) :
    progress.positionals.length + progress.waits.toNat + arguments.countP form.opens ≤
      arguments.countP isPlain + last.positionals.length := by
  induction arguments generalizing trailing progress with
  | nil =>
    have ok : form.settle progress = .ok last := by
      cases trailing <;> exact taken
    obtain ⟨_, slots, closed⟩ := settle_spec ok
    simp [slots, closed]
  | cons argument rest ih =>
    have counted (test : String → Bool) :
        (if test argument = true then 1 else 0) = (test argument).toNat := by
      cases test argument <;> rfl
    rw [List.countP_cons, List.countP_cons, counted, counted]
    cases trailing with
    | false =>
      obtain ⟨next, first, taken⟩ := bind_eq_ok taken
      obtain ⟨now, kept⟩ := (taken_of_take first).counts
      have later := ih (fun slot member => refuses slot (kept slot member)) taken
      omega
    | true =>
      obtain ⟨next, first, taken⟩ := bind_eq_ok taken
      obtain ⟨fewer, closed, still, kept⟩ := takePositional_counts first
      have later := ih (fun slot member => refuses slot (kept slot member)) taken
      have plain : isPlain argument = true := by
        obtain ⟨slot, settled, slots, _, parts⟩ := takePositional_spec first
        obtain ⟨done, ok⟩ := settles_of_trailing taken
        have named : next.pending = some ⟨slot, some argument⟩ := by rw [parts]
        have put := (settled?_of_ok ok).symm.trans (settled?_named named)
        cases shape : isPlain argument with
        | true => rfl
        | false =>
          have refused := refuses slot (slots ▸ List.mem_cons_self) argument next.draft shape
          cases put.trans refused
      have notOpen : form.opens argument = false := by
        simp only [isPlain] at plain
        simp only [opens]
        split at plain <;> simp_all
      simp only [plain, notOpen, closed, still, Bool.toNat_true, Bool.toNat_false] at later ⊢
      omega

/-! ## Slots that stay empty -/

/-- What lets a form tell whether all its positional arguments were there: what is put elsewhere
leaves their slots empty, and no command comes of an empty one. Only the first of them takes a text
that begins with two dashes. -/
structure Spacious (form : Form σ α) : Prop where
  options : ∀ item ∈ form.options, ∀ slot ∈ form.positionals, item.2.Spares slot
  switches : ∀ item ∈ form.switches, ∀ slot ∈ form.positionals, item.2.Spares slot
  positionals : form.positionals.Pairwise Slot.Spares
  blank : ∀ slot ∈ form.positionals, slot.filled form.blank = false
  finish : ∀ draft command, form.finish draft = some command →
    ∀ slot ∈ form.positionals, slot.filled draft = true
  refuses : ∀ slot ∈ form.positionals.tail, slot.RefusesDashes

/-- The positional slots that nothing was given for are empty, and stay so. -/
structure Vacant (form : Form σ α) (progress : Progress σ) : Prop where
  known : ∀ slot ∈ progress.positionals, slot ∈ form.positionals
  unfilled : ∀ slot ∈ progress.positionals, slot.filled progress.draft = false
  pending : ∀ named, progress.pending = some named →
    ∀ slot ∈ progress.positionals, named.slot.Spares slot
  ordered : progress.positionals.Pairwise Slot.Spares

theorem Vacant.settle (vacant : form.Vacant progress) (ok : form.settle progress = .ok next) :
    form.Vacant next := by
  obtain ⟨idle, slots, _⟩ := settle_spec ok
  constructor
  · rw [slots]
    exact vacant.known
  · intro slot member
    rw [slots] at member
    unfold Form.settle at ok
    split at ok
    · cases ok
      exact vacant.unfilled slot member
    · cases ok
    · rename_i named value pending
      split at ok
      · cases ok
      · split at ok
        · cases ok
        · rename_i draft filled
          cases ok
          have spares := vacant.pending _ pending slot member
          exact (spares value progress.draft draft filled).trans (vacant.unfilled slot member)
  · intro named pending
    rw [idle] at pending
    cases pending
  · rw [slots]
    exact vacant.ordered

/-- Naming a slot keeps the others empty if it spares them. -/
theorem Vacant.name (vacant : form.Vacant progress) {named : Open σ} {slots : List (Slot σ)}
    (sublist : slots.Sublist progress.positionals)
    (spares : ∀ slot ∈ slots, named.slot.Spares slot) :
    form.Vacant { progress with pending := some named, positionals := slots } where
  known slot member := vacant.known slot (sublist.subset member)
  unfilled slot member := vacant.unfilled slot (sublist.subset member)
  pending other same := by
    cases same
    exact spares
  ordered := vacant.ordered.sublist sublist

theorem Vacant.takePositional (vacant : form.Vacant progress)
    (taken : form.takePositional argument progress = .ok next) : form.Vacant next := by
  obtain ⟨slot, settled, slots, ok, parts⟩ := takePositional_spec taken
  have ordered := vacant.ordered
  rw [slots] at ordered
  have same := (settle_spec ok).2.1
  rw [parts]
  refine (vacant.settle ok).name ?_ (List.pairwise_cons.mp ordered).1
  rw [same, slots]
  exact List.sublist_cons_self slot next.positionals

theorem Vacant.taken (vacant : form.Vacant progress) (spacious : form.Spacious)
    (taken : Taken form argument progress next) : form.Vacant next := by
  cases taken with
  | escape _ same => exact same ▸ vacant
  | @option longName value slot settled _ found ok parts =>
    have middle := vacant.settle ok
    have open_ : ∀ value, form.Vacant { settled with pending := some ⟨slot, value⟩ } := by
      intro value
      apply middle.name (List.Sublist.refl _)
      intro other member
      exact spacious.options _ (mem_of_lookup found) other (middle.known other member)
    rcases parts with ⟨last, _⟩ | ⟨rfl, _⟩
    · exact (open_ value).settle last
    · exact open_ none
  | @switch longName switch settled _ _ found ok parts =>
    have middle := vacant.settle ok
    subst parts
    constructor
    · exact middle.known
    · intro slot member
      have spares := spacious.switches _ (mem_of_lookup found) slot (middle.known slot member)
      exact (spares settled.draft).trans (middle.unfilled slot member)
    · exact middle.pending
    · exact middle.ordered
  | value _ pending same =>
    subst same
    have spares := vacant.pending _ pending
    exact vacant.name (List.Sublist.refl _) spares
  | positional _ first => exact vacant.takePositional first

theorem Vacant.takeAll (vacant : form.Vacant progress) (spacious : form.Spacious)
    {trailing : Bool} {arguments : List String}
    (taken : form.takeAll trailing arguments progress = .ok last) : form.Vacant last := by
  induction arguments generalizing trailing progress with
  | nil =>
    cases trailing <;> exact vacant.settle taken
  | cons argument rest ih =>
    cases trailing with
    | false =>
      obtain ⟨next, first, taken⟩ := bind_eq_ok taken
      exact ih (vacant.taken spacious (taken_of_take first)) taken
    | true =>
      obtain ⟨next, first, taken⟩ := bind_eq_ok taken
      exact ih (vacant.takePositional first) taken

/-- A command has all its positional arguments. -/
theorem Vacant.positionals_eq_nil (vacant : form.Vacant progress) (spacious : form.Spacious)
    {command : α} (finished : form.finish progress.draft = some command) :
    progress.positionals = [] := by
  cases slots : progress.positionals with
  | nil => rfl
  | cons slot rest =>
    have member : slot ∈ progress.positionals := slots ▸ List.mem_cons_self
    have full := spacious.finish _ command finished slot (vacant.known slot member)
    cases full.symm.trans (vacant.unfilled slot member)

/-! ## Pieces that make a command -/

private theorem texts_subset_words (piece : Piece) : piece.texts ⊆ piece.words := by
  cases piece with
  | positional text => exact List.Subset.refl _
  | switch longName => exact List.nil_subset _
  | option longName value attached =>
    cases attached with
    | true => exact List.nil_subset _
    | false => exact List.subset_cons_self _ _

theorem eq_escape {text : String} (token : Token.ofString text = .escape) : text = "--" := by
  unfold Token.ofString at token
  split at token
  · rename_i characters
    exact String.toList_injective characters
  all_goals cases token

/-- The value of an option that is not attached to it is a word. -/
theorem isWord_of_takeAll {longName value : String} {slot : Slot σ} {rest : List String}
    (isName : IsName longName) (found : form.options.lookup longName = some slot)
    (taken : form.takeAll false (("--" ++ longName) :: value :: rest) progress = .ok last) :
    IsWord value := by
  rw [takeAll_long form progress (Token.ofString_name isName)] at taken
  simp only [takeLong, found] at taken
  obtain ⟨_, opened, taken⟩ := bind_eq_ok taken
  obtain ⟨_, named, same⟩ := bind_eq_ok opened
  cases same
  obtain ⟨middle, _, rfl⟩ := name_spec named
  -- The option is open now, so that nothing can be settled.
  have never : ∀ next, form.settle { middle with pending := some ⟨slot, none⟩ } ≠ .ok next := by
    intro next ok
    cases (settle_spec ok).2.2
  obtain ⟨next, first, taken⟩ := bind_eq_ok taken
  cases taken_of_take first with
  | escape token same =>
    have trailing : (value == "--") = true := beq_iff_eq.mpr (eq_escape token)
    rw [trailing, same] at taken
    obtain ⟨done, ok⟩ := settles_of_trailing taken
    exact absurd ok (never done)
  | option _ _ ok => exact absurd ok (never _)
  | switch _ _ _ ok => exact absurd ok (never _)
  | value token => exact token
  | positional token => exact token

/-- In front of an escape no argument has a single dash. -/
theorem isWord_of_isPlain {arguments : List String}
    (noEscape : ∀ argument ∈ arguments, argument ≠ "--")
    (taken : form.takeAll false arguments progress = .ok last) :
    ∀ argument ∈ arguments, isPlain argument = true → IsWord argument := by
  induction arguments generalizing progress with
  | nil =>
    intro argument member
    cases member
  | cons argument rest ih =>
    obtain ⟨next, first, taken⟩ := bind_eq_ok taken
    rw [beq_false_of_ne (noEscape argument List.mem_cons_self)] at taken
    have later := ih (fun other member => noEscape other (List.mem_cons_of_mem _ member)) taken
    rw [List.forall_mem_cons]
    refine ⟨fun plain => ?_, later⟩
    cases taken_of_take first with
    | escape token | option token | switch token => simp [isPlain, token] at plain
    | value token => exact token
    | positional token => exact token

section Pieces

variable {pieces : List Piece}

theorem Knows.texts {piece : Piece} (knows : form.Knows piece) :
    piece.words.countP isPlain = piece.texts.countP isPlain ∧
      piece.texts.length ≤ piece.positional?.toList.length + piece.words.countP form.opens ∧
        ∀ word ∈ piece.words, word ∈ piece.texts ∨ word ≠ "--" := by
  cases piece with
  | positional text => simp [Piece.words, Piece.texts, Piece.positional?]
  | option longName value attached =>
    obtain ⟨isName, slot, found⟩ := knows
    have token := Token.ofString_name isName
    have named : isPlain ("--" ++ longName) = false := by simp [isPlain, token]
    have open_ : form.opens ("--" ++ longName) = true := by simp [opens, token, found]
    cases attached with
    | true =>
      have whole := Token.ofString_attached isName value
      have notPlain : isPlain ("--" ++ longName ++ "=" ++ value) = false := by
        simp [isPlain, whole]
      have notEscape : "--" ++ longName ++ "=" ++ value ≠ "--" := by
        intro same
        rw [same] at whole
        cases whole
      simp [Piece.words, Piece.texts, notPlain, notEscape]
    | false =>
      refine ⟨?_, ?_, ?_⟩
      · simp [Piece.words, Piece.texts, named]
      · rw [Piece.words, List.countP_cons_of_pos open_]
        simp only [Piece.texts, List.length_singleton]
        omega
      · simp [Piece.words, Piece.texts, isName.ne_escape]
  | switch longName =>
    have token := Token.ofString_name knows.1
    have named : isPlain ("--" ++ longName) = false := by simp [isPlain, token]
    simp [Piece.words, Piece.texts, named, knows.1.ne_escape]

private theorem texts_of_knows (knows : ∀ piece ∈ pieces, form.Knows piece) :
    (pieces.flatMap Piece.words).countP isPlain = (pieces.flatMap Piece.texts).countP isPlain ∧
      (pieces.flatMap Piece.texts).length ≤
        (pieces.filterMap Piece.positional?).length +
          (pieces.flatMap Piece.words).countP form.opens := by
  induction pieces with
  | nil => exact ⟨rfl, Nat.le_refl 0⟩
  | cons piece rest ih =>
    obtain ⟨plain, length⟩ := ih fun other member => knows other (List.mem_cons_of_mem piece member)
    obtain ⟨plainHere, lengthHere, _⟩ := (knows piece List.mem_cons_self).texts
    have positionals : ((piece :: rest).filterMap Piece.positional?).length =
        piece.positional?.toList.length + (rest.filterMap Piece.positional?).length := by
      rw [List.filterMap_cons]
      cases piece.positional? with
      | none => simp
      | some text => exact Nat.add_comm _ 1
    constructor
    · simp [plain, plainHere]
    · simp only [List.flatMap_cons, List.length_append, List.countP_append, positionals]
      omega

/-- Pieces that fill all slots were read as they were written: none of their texts was taken for a
name. -/
theorem reads_of_takeAll (knows : ∀ piece ∈ pieces, form.Knows piece)
    (idle : progress.waits = false)
    (refuses : ∀ slot ∈ progress.positionals.tail, slot.RefusesDashes)
    (enough : progress.positionals.length = (pieces.filterMap Piece.positional?).length)
    (first : ∀ text, (pieces.filterMap Piece.positional?).head? = some text → IsWord text)
    (taken : form.takeAll false (pieces.flatMap Piece.words) progress = .ok last)
    (complete : last.positionals = []) : ∀ piece ∈ pieces, form.Reads piece := by
  induction pieces generalizing progress with
  | nil =>
    intro piece member
    cases member
  | cons piece rest ih =>
    have itsKnows := knows piece List.mem_cons_self
    have restKnows := fun other member => knows other (List.mem_cons_of_mem piece member)
    rw [List.flatMap_cons] at taken
    have isWord : ∀ text ∈ piece.texts, IsWord text := by
      cases piece with
      | positional text =>
        intro other member
        rw [List.mem_singleton.mp member]
        exact first text (by simp [Piece.positional?])
      | option longName value attached =>
        obtain ⟨isName, slot, found⟩ := itsKnows
        cases attached with
        | true =>
          intro other member
          cases member
        | false =>
          intro other member
          rw [List.mem_singleton.mp member]
          exact isWord_of_takeAll isName found taken
      | switch longName =>
        intro other member
        cases member
    have reads : form.Reads piece := ⟨itsKnows, isWord⟩
    rw [List.forall_mem_cons]
    refine ⟨reads, ?_⟩
    cases reading reads idle (rest.flatMap Piece.words) with
    | refused nothing =>
      rw [taken] at nothing
      cases nothing
    | goesOn next stillIdle slots read _ =>
      rw [read] at taken
      cases piece with
      | option longName value attached | switch longName =>
        exact ih restKnows stillIdle (slots ▸ refuses) (slots ▸ enough) first taken
      | positional text =>
        -- From here on no slot takes a text with two dashes, and words and slots are balanced.
        have left : next.positionals = progress.positionals.tail := slots
        have count := balance (left ▸ refuses) taken
        obtain ⟨plain, length⟩ := texts_of_knows restKnows
        have all : (rest.flatMap Piece.texts).countP isPlain =
            (rest.flatMap Piece.texts).length := by
          have most := List.countP_le_length (p := isPlain) (l := rest.flatMap Piece.texts)
          simp only [Piece.positional?, List.filterMap_cons, List.length_cons] at enough
          rw [left, List.length_tail, complete, List.length_nil, stillIdle,
            Bool.toNat_false] at count
          omega
        have plainTexts := List.countP_eq_length.mp all
        have noEscape : ∀ word ∈ rest.flatMap Piece.words, word ≠ "--" := by
          intro word member
          obtain ⟨other, isOne, inside⟩ := List.mem_flatMap.mp member
          rcases (restKnows other isOne).texts.2.2 word inside with isText | different
          · rintro rfl
            cases plainTexts "--" (List.mem_flatMap.mpr ⟨other, isOne, isText⟩)
          · exact different
        intro other member
        refine ⟨restKnows other member, fun text isText => ?_⟩
        apply isWord_of_isPlain noEscape taken
        · exact List.mem_flatMap.mpr ⟨other, member, texts_subset_words other isText⟩
        · exact plainTexts text (List.mem_flatMap.mpr ⟨other, member, isText⟩)

theorem reads_of_parse {command : α} (spacious : form.Spacious)
    (knows : ∀ piece ∈ pieces, form.Knows piece)
    (enough : form.positionals.length = (pieces.filterMap Piece.positional?).length)
    (first : ∀ text, (pieces.filterMap Piece.positional?).head? = some text → IsWord text)
    (parsed : form.parse (pieces.flatMap Piece.words) = .ok command) :
    ∀ piece ∈ pieces, form.Reads piece := by
  have start : form.Vacant { draft := form.blank, positionals := form.positionals } := by
    constructor
    · exact fun _ member => member
    · exact spacious.blank
    · intro named pending
      cases pending
    · exact spacious.positionals
  unfold Form.parse at parsed
  obtain ⟨last, taken, parsed⟩ := bind_eq_ok parsed
  cases finished : form.finish last.draft with
  | none =>
    rw [finished] at parsed
    cases parsed
  | some _ =>
    have complete := (start.takeAll spacious taken).positionals_eq_nil spacious finished
    exact reads_of_takeAll knows rfl spacious.refuses enough first taken complete

end Pieces

end Form

end ChatHub.CommandLine
