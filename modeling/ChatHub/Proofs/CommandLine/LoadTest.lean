import ChatHub.CommandLine.Command
import ChatHub.Proofs.CommandLine.Balance
import ChatHub.Proofs.CommandLine.Numeral
/-!
The command line of a load test. However its options are spelled and wherever they stand among the
positional arguments, the same texts give the same arguments, and texts that are no numbers within
their bounds give none. Main statement: `arrangements_agree`.
-/

set_option autoImplicit false

namespace ChatHub.CommandLine

/-- The texts that are written for a load test. -/
structure Given where
  host : String
  port : String
  concurrency : String
  duration : String
  quiet : Bool := false
  json : Bool := false
  warmup : Option String := none
  waitBound : Option String := none
  pacing : Option String := none
  grace : Option String := none
  deriving DecidableEq, Repr

/-- A number that stands for itself, or the one that counts if none was written. -/
def AmountOr (default : Nat) (text? : Option String) (value : Nat) : Prop :=
  match text? with
  | none => value = default
  | some text => Denotes text value ∧ value < 2 ^ 64

namespace Given

def switch (longName : String) (isOn : Bool) : List (String × Option String) :=
  if isOn then [(longName, none)] else []

def option (longName : String) (text? : Option String) : List (String × Option String) :=
  text?.toList.map fun text => (longName, some text)

/-- The options and switches that were chosen. -/
def options (given : Given) : List (String × Option String) :=
  switch "quiet" given.quiet ++ (switch "json" given.json ++ (option "warmup" given.warmup ++
    (option "wait-bound" given.waitBound ++ (option "pacing-ms" given.pacing ++
      option "grace" given.grace))))

def positionals (given : Given) : List String :=
  [given.host, given.port, given.concurrency, given.duration]

/-- The texts that should be numbers. -/
def numbers (given : Given) : List String :=
  [given.port, given.concurrency, given.duration] ++
    [given.warmup, given.waitBound, given.pacing, given.grace].filterMap id

/-- The positional arguments stand in their order, and each option stands somewhere, once. -/
structure Arranges (given : Given) (pieces : List Piece) : Prop where
  positionals : pieces.filterMap Piece.positional? = given.positionals
  options : (pieces.filterMap Piece.named?).Perm given.options

/-- What the texts stand for, with what counts for the options that were left out. -/
structure Means (given : Given) (arguments : BenchArguments) : Prop where
  host : arguments.host = given.host
  port : Denotes given.port arguments.port ∧ arguments.port < 2 ^ 16
  concurrency : Denotes given.concurrency arguments.concurrency ∧
    0 < arguments.concurrency ∧ arguments.concurrency < 2 ^ 64
  duration : Denotes given.duration arguments.duration ∧
    0 < arguments.duration ∧ arguments.duration < 2 ^ 64
  quiet : arguments.quiet = given.quiet
  json : arguments.json = given.json
  warmup : AmountOr 3 given.warmup arguments.warmup
  waitBound : AmountOr 10 given.waitBound arguments.waitBound
  pacing : AmountOr 10 given.pacing arguments.pacing
  grace : AmountOr 30 given.grace arguments.grace

/-- Why texts stand for no load test. -/
inductive Faulty (given : Given) : Prop where
  | port {value : Nat} : Denotes given.port value → 2 ^ 16 ≤ value → Faulty given
  | zero {text : String} : text ∈ [given.concurrency, given.duration] → Denotes text 0 →
      Faulty given
  | tooLarge {text : String} {value : Nat} : text ∈ given.numbers → Denotes text value →
      2 ^ 64 ≤ value → Faulty given
  | noDigit {text : String} {character : Char} : text ∈ given.numbers →
      character ∈ unsigned text → character.isDigit = false → Faulty given
  | blank {text : String} : text ∈ given.numbers → unsigned text = [] → Faulty given

end Given

/-! ## Updates by a load test's form -/

/-- Puts a value that may be missing into a field that is not set yet. -/
def putField {σ β : Type} (isSet : σ → Bool) (set : β → σ → σ) (value? : Option β) (draft : σ) :
    Option σ :=
  if isSet draft then none else value?.map fun value => set value draft

private theorem independent_putField {σ β γ : Type} {isSet isSet' : σ → Bool} {set : β → σ → σ}
    {set' : γ → σ → σ} (spares : ∀ value draft, isSet' (set value draft) = isSet' draft)
    (spares' : ∀ value draft, isSet (set' value draft) = isSet draft)
    (commute : ∀ value value' draft,
      set' value' (set value draft) = set value (set' value' draft))
    (value? : Option β) (value'? : Option γ) :
    Independent (putField isSet set value?) (putField isSet' set' value'?) := by
  intro draft
  cases first : isSet draft <;> cases second : isSet' draft <;> cases value? <;> cases value'? <;>
    simp [putField, first, second, spares, spares', commute]

/-! ### Values -/

private theorem exists_dashes {text : String} (notPlain : isPlain text = false) :
    ∃ rest, text.toList = '-' :: '-' :: rest := by
  unfold isPlain at notPlain
  split at notPlain
  · rename_i token
    rw [Form.eq_escape token]
    exact ⟨[], rfl⟩
  · rename_i token
    unfold Token.ofString at token
    split at token
    · cases token
    · rename_i rest _ characters
      exact ⟨rest, characters⟩
    · cases token
    · cases token
  all_goals cases notPlain

private theorem dash_of_isWord {text : String} (isWord : IsWord text)
    (dash : text.toList.head? = some '-') : text.toList = ['-'] := by
  unfold IsWord Token.ofString at isWord
  split at isWord
  · cases isWord
  · cases isWord
  · cases isWord
  · cases characters : text.toList with
    | nil => simp [characters] at dash
    | cons first rest =>
      cases rest with
      | nil => simp_all
      | cons second rest => simp_all

/-- A lone dash is a word, and no port. -/
theorem port_eq_ok_iff_of_isWord {text : String} (isWord : IsWord text) {value : Nat} :
    Number.port text = .ok value ↔ Denotes text value ∧ value < 2 ^ 16 := by
  by_cases dash : text.toList.head? = some '-'
  · have alone := dash_of_isWord isWord dash
    constructor
    · intro read
      simp [Number.port, Number.integer64, alone, Number.signed, Except.map] at read
    · rintro ⟨denotes, _⟩
      exact absurd dash denotes.head?_ne_dash
  · exact Number.port_eq_ok_iff dash

theorem put?_number {σ : Type} (read : String → Except NumberFault Nat) (label : String)
    (filled : σ → Bool) (set : Nat → σ → σ) (text : String) :
    Slot.put?
      { label, filled, fill := fun text draft => do
          let value ← number read text
          .ok (set value draft) } text =
      putField filled set (read text).toOption := by
  funext draft
  simp only [Slot.put?, putField, number]
  split
  · rfl
  · cases read text with
    | error fault => rfl
    | ok value => rfl

namespace BenchDraft

def setHost (value : String) (draft : BenchDraft) : BenchDraft :=
  { draft with host := some value }

def setPort (value : Nat) (draft : BenchDraft) : BenchDraft :=
  { draft with port := some value }

def setConcurrency (value : Nat) (draft : BenchDraft) : BenchDraft :=
  { draft with concurrency := some value }

def setDuration (value : Nat) (draft : BenchDraft) : BenchDraft :=
  { draft with duration := some value }

def setQuiet (_ : Unit) (draft : BenchDraft) : BenchDraft :=
  { draft with quiet := true }

def setJson (_ : Unit) (draft : BenchDraft) : BenchDraft :=
  { draft with json := true }

def setWarmup (value : Nat) (draft : BenchDraft) : BenchDraft :=
  { draft with warmup := some value }

def setWaitBound (value : Nat) (draft : BenchDraft) : BenchDraft :=
  { draft with waitBound := some value }

def setPacing (value : Nat) (draft : BenchDraft) : BenchDraft :=
  { draft with pacing := some value }

def setGrace (value : Nat) (draft : BenchDraft) : BenchDraft :=
  { draft with grace := some value }

end BenchDraft

open BenchDraft

def positionalUpdates (host port concurrency duration : String) :
    List (BenchDraft → Option BenchDraft) :=
  [putField (·.host.isSome) setHost (some host),
    putField (·.port.isSome) setPort (Number.port port).toOption,
    putField (·.concurrency.isSome) setConcurrency (Number.positive64 concurrency).toOption,
    putField (·.duration.isSome) setDuration (Number.positive64 duration).toOption]

def optionUpdates (warmup waitBound pacing grace : String) :
    List (BenchDraft → Option BenchDraft) :=
  [putField BenchDraft.quiet setQuiet (some ()),
    putField BenchDraft.json setJson (some ()),
    putField (·.warmup.isSome) setWarmup (Number.natural64 warmup).toOption,
    putField (·.waitBound.isSome) setWaitBound (Number.natural64 waitBound).toOption,
    putField (·.pacing.isSome) setPacing (Number.natural64 pacing).toOption,
    putField (·.grace.isSome) setGrace (Number.natural64 grace).toOption]

private theorem positionalUpdates_eq (host port concurrency duration : String) :
    List.zipWith Slot.put? benchForm.positionals [host, port, concurrency, duration] =
      positionalUpdates host port concurrency duration := by
  simp only [benchForm, positionalUpdates, List.zipWith_cons_cons, List.zipWith_nil_right,
    List.cons.injEq]
  exact ⟨rfl, put?_number Number.port _ _ setPort port,
    put?_number Number.positive64 _ _ setConcurrency concurrency,
    put?_number Number.positive64 _ _ setDuration duration, trivial⟩

private theorem given?_quiet : benchForm.given? ("quiet", none) =
    putField BenchDraft.quiet setQuiet (some ()) := rfl

private theorem given?_json : benchForm.given? ("json", none) =
    putField BenchDraft.json setJson (some ()) := rfl

private theorem given?_warmup (text : String) : benchForm.given? ("warmup", some text) =
    putField (·.warmup.isSome) setWarmup (Number.natural64 text).toOption :=
  put?_number Number.natural64 _ _ setWarmup text

private theorem given?_waitBound (text : String) : benchForm.given? ("wait-bound", some text) =
    putField (·.waitBound.isSome) setWaitBound (Number.natural64 text).toOption :=
  put?_number Number.natural64 _ _ setWaitBound text

private theorem given?_pacing (text : String) : benchForm.given? ("pacing-ms", some text) =
    putField (·.pacing.isSome) setPacing (Number.natural64 text).toOption :=
  put?_number Number.natural64 _ _ setPacing text

private theorem given?_grace (text : String) : benchForm.given? ("grace", some text) =
    putField (·.grace.isSome) setGrace (Number.natural64 text).toOption :=
  put?_number Number.natural64 _ _ setGrace text

private theorem optionUpdates_eq (warmup waitBound pacing grace : String) :
    [("quiet", none), ("json", none), ("warmup", some warmup), ("wait-bound", some waitBound),
        ("pacing-ms", some pacing), ("grace", some grace)].map benchForm.given? =
      optionUpdates warmup waitBound pacing grace := by
  simp only [List.map_cons, List.map_nil, given?_quiet, given?_json, given?_warmup,
    given?_waitBound, given?_pacing, given?_grace, optionUpdates]

/-- No two fields get in each other's way. -/
theorem pairwise_fieldUpdates
    (host port concurrency duration warmup waitBound pacing grace : String) :
    (positionalUpdates host port concurrency duration ++
      optionUpdates warmup waitBound pacing grace).Pairwise Independent := by
  simp only [positionalUpdates, optionUpdates, List.cons_append, List.nil_append,
    List.pairwise_cons, List.forall_mem_cons, List.not_mem_nil, false_implies, implies_true,
    List.Pairwise.nil, and_true]
  refine ⟨?_, ?_, ?_, ?_, ?_, ?_, ?_, ?_, ?_⟩
  all_goals
    repeat' apply And.intro
    all_goals
      apply independent_putField
      all_goals
        intros
        rfl

private theorem toOption_eq_some_iff {ε α : Type} {outcome : Except ε α} {value : α} :
    outcome.toOption = some value ↔ outcome = .ok value := by
  cases outcome <;> simp [Except.toOption]

/-- An option that was left out, or the number that was written for it. -/
def written? : Option String → Option (Option Nat)
  | none => some none
  | some text => (Number.natural64 text).toOption.map some

theorem written?_eq_some_iff {text? : Option String} {default value : Nat} :
    (∃ amount, written? text? = some amount ∧ amount.getD default = value) ↔
      AmountOr default text? value := by
  cases text? with
  | none =>
    simp [written?, AmountOr, eq_comm]
  | some text =>
    simp only [written?, AmountOr, Option.map_eq_some_iff]
    constructor
    · rintro ⟨amount, ⟨read, found, rfl⟩, rfl⟩
      cases outcome : Number.natural64 text with
      | error fault =>
        rw [outcome] at found
        cases found
      | ok number =>
        rw [outcome] at found
        cases found
        exact Number.natural64_eq_ok_iff.mp outcome
    · intro denotes
      refine ⟨some value, ⟨value, ?_, rfl⟩, rfl⟩
      rw [Number.natural64_eq_ok_iff.mpr denotes]
      rfl

/-- An option sets its field if it was chosen. -/
theorem run_option {longName : String} {isSet : BenchDraft → Bool}
    {set : Nat → BenchDraft → BenchDraft}
    (puts : ∀ text, benchForm.given? (longName, some text) =
      putField isSet set (Number.natural64 text).toOption)
    (text? : Option String) {draft : BenchDraft} (assign : Option Nat → BenchDraft)
    (empty : isSet draft = false) (none_ : assign none = draft)
    (some_ : ∀ value, assign (some value) = set value draft) :
    run ((Given.option longName text?).map benchForm.given?) (some draft) =
      (written? text?).map assign := by
  cases text? with
  | none => exact congrArg some none_.symm
  | some text => simp [Given.option, run, puts, putField, empty, written?, some_, Function.comp_def]

private theorem run_switch {longName : String} {isOn : BenchDraft → Bool}
    {turnOn : Unit → BenchDraft → BenchDraft}
    (puts : benchForm.given? (longName, none) = putField isOn turnOn (some ()))
    (chosen : Bool) {draft : BenchDraft} (assign : Bool → BenchDraft) (off : isOn draft = false)
    (false_ : assign false = draft) (true_ : assign true = turnOn () draft) :
    run ((Given.switch longName chosen).map benchForm.given?) (some draft) =
      some (assign chosen) := by
  cases chosen with
  | false => exact congrArg some false_.symm
  | true => simp [Given.switch, run, puts, putField, off, true_]

namespace Given

variable (given : Given)

/-- What the texts do to a draft, in the order in which the form lists them. -/
def updates : List (BenchDraft → Option BenchDraft) :=
  List.zipWith Slot.put? benchForm.positionals given.positionals ++
    given.options.map benchForm.given?

private theorem switch_sublist (longName : String) (isOn : Bool) :
    (switch longName isOn).Sublist [(longName, none)] := by
  cases isOn <;> simp [switch]

theorem option_sublist (longName : String) (text? : Option String) :
    (option longName text?).Sublist [(longName, some (text?.getD ""))] := by
  cases text? <;> simp [option]

private theorem pairwise_updates : given.updates.Pairwise Independent := by
  have all := pairwise_fieldUpdates given.host given.port given.concurrency given.duration
    (given.warmup.getD "") (given.waitBound.getD "") (given.pacing.getD "")
    (given.grace.getD "")
  rw [← positionalUpdates_eq, ← optionUpdates_eq] at all
  refine List.Pairwise.sublist ?_ all
  refine (List.Sublist.refl _).append (List.Sublist.map _ ?_)
  exact (switch_sublist _ _).append ((switch_sublist _ _).append ((option_sublist _ _).append
    ((option_sublist _ _).append ((option_sublist _ _).append (option_sublist _ _)))))

/-- The arguments that come of the texts, if each can be read. -/
def arguments? : Option BenchArguments :=
  (Number.port given.port).toOption.bind fun port =>
  (Number.positive64 given.concurrency).toOption.bind fun concurrency =>
  (Number.positive64 given.duration).toOption.bind fun duration =>
  (written? given.warmup).bind fun warmup =>
  (written? given.waitBound).bind fun waitBound =>
  (written? given.pacing).bind fun pacing =>
  (written? given.grace).map fun grace =>
    { host := given.host, port, concurrency, duration
      quiet := given.quiet, json := given.json
      warmup := warmup.getD 3, waitBound := waitBound.getD 10
      pacing := pacing.getD 10, grace := grace.getD 30 }

private theorem run_positionals (host port concurrency duration : String) :
    run (List.zipWith Slot.put? benchForm.positionals [host, port, concurrency, duration])
        (some benchForm.blank) =
      (Number.port port).toOption.bind fun port =>
      (Number.positive64 concurrency).toOption.bind fun concurrency =>
      (Number.positive64 duration).toOption.map fun duration =>
        { host := some host, port := some port
          concurrency := some concurrency, duration := some duration } := by
  rw [positionalUpdates_eq, positionalUpdates]
  cases Number.port port with
  | error fault => rfl
  | ok port =>
    cases Number.positive64 concurrency with
    | error fault => rfl
    | ok concurrency =>
      cases Number.positive64 duration with
      | error fault => rfl
      | ok duration => rfl

/-- The fields of the options that were chosen are set, all others are as they were. -/
theorem run_options (port concurrency duration : Nat) :
    run (given.options.map benchForm.given?)
        (some
          { host := some given.host, port := some port
            concurrency := some concurrency, duration := some duration }) =
      (written? given.warmup).bind fun warmup =>
      (written? given.waitBound).bind fun waitBound =>
      (written? given.pacing).bind fun pacing =>
      (written? given.grace).map fun grace =>
        { host := some given.host, port := some port
          concurrency := some concurrency, duration := some duration
          quiet := given.quiet, json := given.json
          warmup, waitBound, pacing, grace } := by
  unfold options
  simp only [List.map_append, run_append]
  rw [run_switch given?_quiet given.quiet (.mk _ _ _ _ · _ _ _ _ _) rfl rfl rfl,
    run_switch given?_json given.json (.mk _ _ _ _ _ · _ _ _ _) rfl rfl rfl,
    run_option given?_warmup given.warmup (.mk _ _ _ _ _ _ · _ _ _) rfl rfl fun _ => rfl]
  cases written? given.warmup with
  | none => simp [run_none]
  | some warmup =>
    rw [Option.map_some, Option.bind_some,
      run_option given?_waitBound given.waitBound (.mk _ _ _ _ _ _ _ · _ _) rfl rfl fun _ => rfl]
    cases written? given.waitBound with
    | none => simp [run_none]
    | some waitBound =>
      rw [Option.map_some, Option.bind_some,
        run_option given?_pacing given.pacing (.mk _ _ _ _ _ _ _ _ · _) rfl rfl fun _ => rfl]
      cases written? given.pacing with
      | none => simp [run_none]
      | some pacing =>
        rw [Option.map_some, Option.bind_some,
          run_option given?_grace given.grace (.mk _ _ _ _ _ _ _ _ _ ·) rfl rfl fun _ => rfl]

private theorem run_updates : (run given.updates (some benchForm.blank)).bind benchForm.finish =
    given.arguments? := by
  unfold updates arguments?
  rw [run_append, positionals, run_positionals]
  cases (Number.port given.port).toOption with
  | none => simp [run_none]
  | some port =>
    cases (Number.positive64 given.concurrency).toOption with
    | none => simp [run_none]
    | some concurrency =>
      cases (Number.positive64 given.duration).toOption with
      | none => simp [run_none]
      | some duration =>
        simp only [Option.bind_some, Option.map_some]
        rw [run_options given port concurrency duration]
        cases written? given.warmup with
        | none => rfl
        | some warmup =>
          cases written? given.waitBound with
          | none => rfl
          | some waitBound =>
            cases written? given.pacing with
            | none => rfl
            | some pacing =>
              cases written? given.grace with
              | none => rfl
              | some grace => rfl

variable {given}

private theorem arguments?_eq_some_iff (isWord : IsWord given.port) {arguments : BenchArguments} :
    given.arguments? = some arguments ↔ given.Means arguments := by
  simp only [arguments?, Option.bind_eq_some_iff, Option.map_eq_some_iff,
    toOption_eq_some_iff]
  constructor
  · rintro ⟨port, portRead, concurrency, concurrencyRead, duration, durationRead, warmup,
      warmupRead, waitBound, waitBoundRead, pacing, pacingRead, grace, graceRead, rfl⟩
    constructor
    · rfl
    · exact (port_eq_ok_iff_of_isWord isWord).mp portRead
    · exact Number.positive64_eq_ok_iff.mp concurrencyRead
    · exact Number.positive64_eq_ok_iff.mp durationRead
    · rfl
    · rfl
    · exact written?_eq_some_iff.mp ⟨warmup, warmupRead, rfl⟩
    · exact written?_eq_some_iff.mp ⟨waitBound, waitBoundRead, rfl⟩
    · exact written?_eq_some_iff.mp ⟨pacing, pacingRead, rfl⟩
    · exact written?_eq_some_iff.mp ⟨grace, graceRead, rfl⟩
  · intro means
    obtain ⟨warmup, warmupRead, warmupIs⟩ := written?_eq_some_iff.mpr means.warmup
    obtain ⟨waitBound, waitBoundRead, waitBoundIs⟩ := written?_eq_some_iff.mpr means.waitBound
    obtain ⟨pacing, pacingRead, pacingIs⟩ := written?_eq_some_iff.mpr means.pacing
    obtain ⟨grace, graceRead, graceIs⟩ := written?_eq_some_iff.mpr means.grace
    refine ⟨_, (port_eq_ok_iff_of_isWord isWord).mpr means.port, _,
      Number.positive64_eq_ok_iff.mpr means.concurrency, _,
      Number.positive64_eq_ok_iff.mpr means.duration, warmup, warmupRead, waitBound, waitBoundRead,
      pacing, pacingRead, grace, graceRead, ?_⟩
    rw [warmupIs, waitBoundIs, pacingIs, graceIs, ← means.host, ← means.quiet, ← means.json]

/-! ### Lines of a load test -/

private theorem mem_switch {longName : String} {isOn : Bool} {item : String × Option String}
    (member : item ∈ switch longName isOn) : item = (longName, none) := by
  cases isOn with
  | false => cases member
  | true => exact List.mem_singleton.mp member

theorem mem_option {longName : String} {text? : Option String} {item : String × Option String}
    (member : item ∈ option longName text?) :
    ∃ text, text? = some text ∧ item = (longName, some text) := by
  cases text? with
  | none => cases member
  | some text => exact ⟨text, rfl, List.mem_singleton.mp member⟩

/-- What can be found among the options. -/
theorem mem_options {item : String × Option String} (member : item ∈ given.options) :
    (item.2 = none ∧ item.1 ∈ ["quiet", "json"]) ∨
      ∃ text, item.2 = some text ∧ text ∈ given.numbers ∧
        item.1 ∈ ["warmup", "wait-bound", "pacing-ms", "grace"] := by
  simp only [options, List.mem_append] at member
  rcases member with quiet | json | warmup | waitBound | pacing | grace
  · left
    simp [mem_switch quiet]
  · left
    simp [mem_switch json]
  · obtain ⟨text, written, rfl⟩ := mem_option warmup
    exact .inr ⟨text, rfl, by simp [numbers, written], by simp⟩
  · obtain ⟨text, written, rfl⟩ := mem_option waitBound
    exact .inr ⟨text, rfl, by simp [numbers, written], by simp⟩
  · obtain ⟨text, written, rfl⟩ := mem_option pacing
    exact .inr ⟨text, rfl, by simp [numbers, written], by simp⟩
  · obtain ⟨text, written, rfl⟩ := mem_option grace
    exact .inr ⟨text, rfl, by simp [numbers, written], by simp⟩

private theorem isName_option {longName : String}
    (member : longName ∈ ["warmup", "wait-bound", "pacing-ms", "grace"]) :
    IsName longName ∧ ∃ slot, benchForm.options.lookup longName = some slot := by
  simp only [List.mem_cons, List.not_mem_nil, or_false] at member
  rcases member with rfl | rfl | rfl | rfl
  all_goals exact ⟨⟨by decide, by decide⟩, _, rfl⟩

private theorem isName_switch {longName : String} (member : longName ∈ ["quiet", "json"]) :
    IsName longName ∧ benchForm.options.lookup longName = none ∧
      ∃ switch, benchForm.switches.lookup longName = some switch := by
  simp only [List.mem_cons, List.not_mem_nil, or_false] at member
  rcases member with rfl | rfl
  all_goals exact ⟨⟨by decide, by decide⟩, rfl, _, rfl⟩

namespace Arranges

variable {pieces : List Piece}

theorem named (arranged : given.Arranges pieces) {piece : Piece} {item : String × Option String}
    (member : piece ∈ pieces) (its : piece.named? = some item) : item ∈ given.options :=
  arranged.options.mem_iff.mp (List.mem_filterMap.mpr ⟨piece, member, its⟩)

theorem knows (arranged : given.Arranges pieces) : ∀ piece ∈ pieces, benchForm.Knows piece := by
  intro piece member
  cases piece with
  | positional text => trivial
  | option longName value attached =>
    rcases mem_options (arranged.named member rfl) with ⟨none_, _⟩ | ⟨_, _, _, known⟩
    · cases none_
    · exact isName_option known
  | switch longName =>
    rcases mem_options (arranged.named member rfl) with ⟨_, known⟩ | ⟨_, some_, _⟩
    · exact isName_switch known
    · cases some_

/-- The texts of a line are the host and the numbers. -/
theorem mem_texts (arranged : given.Arranges pieces) {piece : Piece} (member : piece ∈ pieces)
    {text : String} (isText : text ∈ piece.texts) : text = given.host ∨ text ∈ given.numbers := by
  cases piece with
  | positional other =>
    cases List.mem_singleton.mp isText
    have inside : text ∈ given.positionals :=
      arranged.positionals ▸ List.mem_filterMap.mpr ⟨_, member, rfl⟩
    simp only [Given.positionals, List.mem_cons, List.not_mem_nil, or_false] at inside
    rcases inside with host | port | concurrency | duration
    · exact .inl host
    all_goals
      right
      simp [numbers, *]
  | option longName value attached =>
    cases attached with
    | true => cases isText
    | false =>
      cases List.mem_singleton.mp isText
      rcases mem_options (arranged.named member rfl) with ⟨none_, _⟩ | ⟨_, same, number, _⟩
      · cases none_
      · cases same
        exact .inr number
  | switch longName => cases isText

end Arranges

theorem Means.denotes {arguments : BenchArguments} (means : given.Means arguments) :
    ∀ text ∈ given.numbers, ∃ value, Denotes text value ∧ value < 2 ^ 64 := by
  have small : ∀ {text? : Option String} {default value : Nat}, AmountOr default text? value →
      ∀ text, text? = some text → ∃ value, Denotes text value ∧ value < 2 ^ 64 := by
    rintro _ default value amount text rfl
    exact ⟨value, amount⟩
  intro text member
  simp only [numbers, List.mem_append, List.mem_cons, List.not_mem_nil, or_false,
    List.mem_filterMap, id_eq] at member
  rcases member with (rfl | rfl | rfl) | ⟨text?, rfl | rfl | rfl | rfl, written⟩
  · exact ⟨_, means.port.1, by have := means.port.2; omega⟩
  · exact ⟨_, means.concurrency.1, means.concurrency.2.2⟩
  · exact ⟨_, means.duration.1, means.duration.2.2⟩
  · exact small means.warmup text written
  · exact small means.waitBound text written
  · exact small means.pacing text written
  · exact small means.grace text written

private theorem Faulty.not_means (faulty : given.Faulty) (arguments : BenchArguments) :
    ¬ given.Means arguments := by
  intro means
  cases faulty with
  | port denotes large =>
    have small := means.port.2
    rw [means.port.1.unique denotes] at small
    omega
  | @zero text member denotes =>
    simp only [List.mem_cons, List.not_mem_nil, or_false] at member
    rcases member with rfl | rfl
    · exact absurd (means.concurrency.1.unique denotes)
        (Nat.pos_iff_ne_zero.mp means.concurrency.2.1)
    · exact absurd (means.duration.1.unique denotes) (Nat.pos_iff_ne_zero.mp means.duration.2.1)
  | tooLarge member denotes large =>
    obtain ⟨value, same, small⟩ := means.denotes _ member
    rw [same.unique denotes] at small
    omega
  | noDigit member inside notDigit =>
    obtain ⟨value, denotes, _⟩ := means.denotes _ member
    cases (denotes.isDigit _ inside).symm.trans notDigit
  | blank member empty =>
    obtain ⟨value, denotes, _⟩ := means.denotes _ member
    exact denotes.nonempty empty

end Given

/-! ## Every arrangement -/

private theorem spares_number {σ : Type} {read : String → Except NumberFault Nat} {label : String}
    {filled : σ → Bool} {set : Nat → σ → σ} {other : Slot σ}
    (spares : ∀ value draft, other.filled (set value draft) = other.filled draft) :
    Slot.Spares
      { label, filled, fill := fun text draft => do
          let value ← number read text
          .ok (set value draft) } other := by
  intro text draft next fills
  simp only [number] at fills
  cases outcome : read text with
  | error fault =>
    rw [outcome] at fills
    cases fills
  | ok value =>
    rw [outcome] at fills
    cases fills
    exact spares value draft

private theorem refusesDashes_number {σ : Type} {read : String → Except NumberFault Nat}
    {label : String} {filled : σ → Bool} {set : Nat → σ → σ}
    (refuses : ∀ text rest, text.toList = '-' :: '-' :: rest → (read text).toOption = none) :
    Slot.RefusesDashes
      { label, filled, fill := fun text draft => do
          let value ← number read text
          .ok (set value draft) : Slot σ } := by
  intro text draft notPlain
  obtain ⟨rest, dashes⟩ := exists_dashes notPlain
  rw [put?_number, putField, refuses text rest dashes]
  split <;> rfl

private theorem positive64_dashes (text : String) (rest : List Char)
    (dashes : text.toList = '-' :: '-' :: rest) : (Number.positive64 text).toOption = none := by
  apply Option.eq_none_iff_forall_ne_some.mpr
  intro value read
  have denotes := (Number.positive64_eq_ok_iff.mp (toOption_eq_some_iff.mp read)).1
  exact denotes.head?_ne_dash (by rw [dashes]; rfl)

private theorem port_dashes (text : String) (rest : List Char)
    (dashes : text.toList = '-' :: '-' :: rest) : (Number.port text).toOption = none := by
  simp [Number.port, Number.integer64, dashes, Number.signed, Number.digits, Except.map,
    Except.toOption]

private theorem spacious_bench : benchForm.Spacious := by
  constructor
  · intro item isOption slot isPositional
    simp only [benchForm, List.mem_cons, List.not_mem_nil, or_false] at isOption isPositional
    rcases isOption with rfl | rfl | rfl | rfl
    all_goals
      rcases isPositional with rfl | rfl | rfl | rfl
      all_goals exact spares_number fun _ _ => rfl
  · intro item isSwitch slot isPositional
    simp only [benchForm, List.mem_cons, List.not_mem_nil, or_false] at isSwitch isPositional
    rcases isSwitch with rfl | rfl
    all_goals
      rcases isPositional with rfl | rfl | rfl | rfl
      all_goals exact fun _ => rfl
  · simp only [benchForm, List.pairwise_cons, List.forall_mem_cons, List.not_mem_nil,
      false_implies, implies_true, List.Pairwise.nil, and_true]
    refine ⟨⟨?_, ?_, ?_⟩, ⟨?_, ?_⟩, ?_⟩
    all_goals first
      | exact spares_number fun _ _ => rfl
      | rintro text draft next ⟨⟩; rfl
  · intro slot isPositional
    simp only [benchForm, List.mem_cons, List.not_mem_nil, or_false] at isPositional
    rcases isPositional with rfl | rfl | rfl | rfl
    all_goals rfl
  · intro draft command finished slot isPositional
    simp only [benchForm, Option.bind_eq_bind, Option.bind_eq_some_iff] at finished
    obtain ⟨host, hostIs, port, portIs, concurrency, concurrencyIs, duration, durationIs, _⟩ :=
      finished
    simp only [benchForm, List.mem_cons, List.not_mem_nil, or_false] at isPositional
    rcases isPositional with rfl | rfl | rfl | rfl
    · simp [hostIs]
    · simp [portIs]
    · simp [concurrencyIs]
    · simp [durationIs]
  · intro slot later
    simp only [benchForm, List.tail_cons, List.mem_cons, List.not_mem_nil, or_false] at later
    rcases later with rfl | rfl | rfl
    · exact refusesDashes_number port_dashes
    · exact refusesDashes_number positive64_dashes
    · exact refusesDashes_number positive64_dashes

namespace Given

variable {given : Given} {arguments : BenchArguments} {pieces : List Piece}

theorem Means.reads (means : given.Means arguments)
    (noDash : given.host.toList.head? ≠ some '-') (arranged : given.Arranges pieces) :
    ∀ piece ∈ pieces, benchForm.Reads piece := by
  intro piece member
  refine ⟨arranged.knows piece member, fun text isText => ?_⟩
  rcases arranged.mem_texts member isText with rfl | number
  · exact isWord_of_head?_ne noDash
  · obtain ⟨_, denotes, _⟩ := means.denotes text number
    exact isWord_of_head?_ne denotes.head?_ne_dash

namespace Arranges

private theorem isWord_port (arranged : given.Arranges pieces)
    (reads : ∀ piece ∈ pieces, benchForm.Reads piece) : IsWord given.port := by
  have member : given.port ∈ pieces.filterMap Piece.positional? := by
    rw [arranged.positionals]
    exact List.mem_cons_of_mem _ List.mem_cons_self
  obtain ⟨piece, inside, its⟩ := List.mem_filterMap.mp member
  cases piece with
  | positional text =>
    cases its
    exact (reads _ inside).isWord _ List.mem_cons_self
  | option longName value attached => cases its
  | switch longName => cases its

private theorem parse_eq_ok_iff_of_reads (arranged : given.Arranges pieces)
    (reads : ∀ piece ∈ pieces, benchForm.Reads piece) :
    benchForm.parse (pieces.flatMap Piece.words) = .ok arguments ↔ given.Means arguments := by
  have drafted : (benchForm.parse (pieces.flatMap Piece.words)).toOption = given.arguments? := by
    rw [← run_updates]
    apply Form.parse_pieces reads
    · rw [arranged.positionals]
      exact Nat.le_refl _
    · rw [arranged.positionals]
      exact (List.Perm.refl _).append (arranged.options.map _)
    · exact given.pairwise_updates
  rw [← toOption_eq_some_iff, drafted, arguments?_eq_some_iff (arranged.isWord_port reads)]

/-- A line is read to the arguments that its texts stand for, or it is refused. -/
theorem parse_eq_ok_iff (arranged : given.Arranges pieces)
    (noDash : given.host.toList.head? ≠ some '-') :
    benchForm.parse (pieces.flatMap Piece.words) = .ok arguments ↔ given.Means arguments := by
  constructor
  · intro parsed
    refine (arranged.parse_eq_ok_iff_of_reads ?_).mp parsed
    apply Form.reads_of_parse spacious_bench arranged.knows _ _ parsed
    · rw [arranged.positionals]
      rfl
    · rw [arranged.positionals]
      rintro _ ⟨⟩
      exact isWord_of_head?_ne noDash
  · intro means
    exact (arranged.parse_eq_ok_iff_of_reads (means.reads noDash arranged)).mpr means

end Arranges

/-- Texts that stand for no load test have one of the faults. -/
theorem means_or_faulty (given : Given) : (∃ arguments, given.Means arguments) ∨ given.Faulty := by
  by_cases faulty : given.Faulty
  · exact .inr faulty
  · left
    have denotes : ∀ text ∈ given.numbers, ∃ value, Denotes text value ∧ value < 2 ^ 64 := by
      intro text member
      have digits : Denotes text (Nat.ofDigitChars 10 (unsigned text) 0) := by
        constructor
        · exact fun empty => faulty (.blank member empty)
        · intro character inside
          by_contra notDigit
          exact faulty (.noDigit member inside (Bool.eq_false_iff.mpr notDigit))
        · rfl
      exact ⟨_, digits, Nat.lt_of_not_le fun large => faulty (.tooLarge member digits large)⟩
    have positive : ∀ text ∈ [given.concurrency, given.duration],
        ∃ value, Denotes text value ∧ 0 < value ∧ value < 2 ^ 64 := by
      intro text member
      obtain ⟨value, stands, small⟩ := denotes text (by
        simp only [List.mem_cons, List.not_mem_nil, or_false] at member
        rcases member with rfl | rfl <;> simp [numbers])
      refine ⟨value, stands, Nat.pos_of_ne_zero ?_, small⟩
      rintro rfl
      exact faulty (.zero member stands)
    have amount (default : Nat) : ∀ text? ∈ [given.warmup, given.waitBound, given.pacing,
        given.grace], ∃ value, AmountOr default text? value := by
      intro text? member
      cases text? with
      | none => exact ⟨default, rfl⟩
      | some text =>
        exact denotes text
          (List.mem_append_right _ (List.mem_filterMap.mpr ⟨some text, member, rfl⟩))
    obtain ⟨port, portIs, _⟩ := denotes given.port (by simp [numbers])
    have portFits : port < 2 ^ 16 := Nat.lt_of_not_le fun large => faulty (.port portIs large)
    obtain ⟨concurrency, concurrencyIs⟩ := positive given.concurrency (by simp)
    obtain ⟨duration, durationIs⟩ := positive given.duration (by simp)
    obtain ⟨warmup, warmupIs⟩ := amount 3 given.warmup (by simp)
    obtain ⟨waitBound, waitBoundIs⟩ := amount 10 given.waitBound (by simp)
    obtain ⟨pacing, pacingIs⟩ := amount 10 given.pacing (by simp)
    obtain ⟨grace, graceIs⟩ := amount 30 given.grace (by simp)
    exact ⟨⟨given.host, port, concurrency, duration, given.quiet, given.json, warmup, waitBound,
      pacing, grace⟩, rfl, ⟨portIs, portFits⟩, concurrencyIs, durationIs, rfl, rfl, warmupIs,
      waitBoundIs, pacingIs, graceIs⟩

end Given

/-- A line that asks for a load test is accepted if and only if the rest of it can be read. -/
theorem parse_bench_eq_ok_iff {words : List String} {arguments : BenchArguments} :
    parse ("bench" :: words) = .ok (.bench arguments) ↔ benchForm.parse words = .ok arguments := by
  change (benchForm.parse words).map Command.bench = .ok (.bench arguments) ↔ _
  generalize benchForm.parse words = outcome
  cases outcome with
  | error refusal => simp [Except.map]
  | ok found => simp [Except.map]

/-- All lines of the same texts are read to what the texts stand for, and so ask for the same load
test. If a text is faulty, none of the lines is accepted. There is no third case. -/
theorem arrangements_agree (given : Given) (noDash : given.host.toList.head? ≠ some '-') :
    (∀ arguments, given.Means arguments → ∀ pieces, given.Arranges pieces →
      parse ("bench" :: pieces.flatMap Piece.words) = .ok (.bench arguments)) ∧
    (∀ pieces others arguments otherArguments, given.Arranges pieces → given.Arranges others →
      parse ("bench" :: pieces.flatMap Piece.words) = .ok (.bench arguments) →
      parse ("bench" :: others.flatMap Piece.words) = .ok (.bench otherArguments) →
        arguments.config = otherArguments.config) ∧
    (given.Faulty → ∀ pieces, given.Arranges pieces →
      ∃ refusal, parse ("bench" :: pieces.flatMap Piece.words) = .error refusal) ∧
    ((∃ arguments, given.Means arguments) ∨ given.Faulty) := by
  refine ⟨?accepted, ?agree, ?refused, given.means_or_faulty⟩
  case accepted =>
    intro arguments means pieces arranged
    exact parse_bench_eq_ok_iff.mpr ((arranged.parse_eq_ok_iff noDash).mpr means)
  case agree =>
    intro pieces others arguments otherArguments arranged othersArranged parsed othersParsed
    have means := (othersArranged.parse_eq_ok_iff noDash).mp (parse_bench_eq_ok_iff.mp othersParsed)
    have same := parse_bench_eq_ok_iff.mpr ((arranged.parse_eq_ok_iff noDash).mpr means)
    cases parsed.symm.trans same
    rfl
  case refused =>
    intro faulty pieces arranged
    cases outcome : benchForm.parse (pieces.flatMap Piece.words) with
    | error refusal => exact ⟨refusal, congrArg (Except.map Command.bench) outcome⟩
    | ok arguments =>
      exact absurd ((arranged.parse_eq_ok_iff noDash).mp outcome) (faulty.not_means arguments)

/-- Two lines of the same texts are accepted, and one whose port is out of range is not. -/
theorem arrangements_agree_localhost :
    (∃ arguments, arguments.port = 9000 ∧ arguments.duration = 2 ∧ arguments.warmup = 0 ∧
      parse ["bench", "--quiet", "localhost", "9000", "--warmup=0", "5", "+2"] =
        .ok (.bench arguments) ∧
      parse ["bench", "localhost", "9000", "5", "--warmup", "0", "+2", "--quiet"] =
        .ok (.bench arguments)) ∧
    ∃ refusal, parse ["bench", "localhost", "--json", "65536", "5", "2"] = .error refusal := by
  refine ⟨⟨⟨"localhost", 9000, 5, 2, true, false, 0, 10, 10, 30⟩, rfl, rfl, rfl, ?_⟩, ?_⟩
  · have same := (arrangements_agree
      { host := "localhost", port := "9000", concurrency := "5", duration := "+2"
        quiet := true, warmup := some "0" } (by decide)).1
      ⟨"localhost", 9000, 5, 2, true, false, 0, 10, 10, 30⟩
      ⟨rfl, by decide, by decide, by decide, rfl, rfl, ⟨by decide, by decide⟩, rfl, rfl, rfl⟩
    constructor
    · exact same
        [.switch "quiet", .positional "localhost", .positional "9000", .option "warmup" "0" true,
          .positional "5", .positional "+2"] ⟨rfl, by decide⟩
    · exact same
        [.positional "localhost", .positional "9000", .positional "5", .option "warmup" "0" false,
          .positional "+2", .switch "quiet"] ⟨rfl, by decide⟩
  · exact (arrangements_agree
      { host := "localhost", port := "65536", concurrency := "5", duration := "2", json := true }
      (by decide)).2.2.1 (.port (show Denotes "65536" 65536 by decide) (by decide))
      [.positional "localhost", .switch "json", .positional "65536", .positional "5",
        .positional "2"] ⟨rfl, by decide⟩

end ChatHub.CommandLine
