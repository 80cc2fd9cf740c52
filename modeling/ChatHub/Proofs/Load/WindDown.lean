import ChatHub.Proofs.Load.Exits
/-!
What users still do once cancellation has been signalled, from whatever state and in whatever order:
they can always go on, only so many steps remain to them at one moment, and they send no more often
than their pauses allow. Main statement: `Lives.woundDown`.
-/

set_option autoImplicit false

namespace ChatHub

/-- Whether a move is a step of a user's own task, or the end of this task. -/
def Move.isOwn (index : Nat) : Move → Bool
  | .cancel other | .proceed other | .abort other => other = index
  | _ => false

/-- Whether a user takes a step at a moment. -/
def Moment.isOwn (index : Nat) (moment : Moment) : Bool :=
  match moment.occurrence with
  | .move taken => taken.isOwn index
  | _ => false

namespace Population

variable {calendar : Nat → String} {before after first last : Population}
  {occurrence : Occurrence} {moments : List Moment} {index : Nat} {user moved : User}

/-- How often the user with an id has put a probe into its outbox. -/
def sent (population : Population) (id : Nat) : Nat :=
  population.probes.countP fun probe => probe.2 = id

/-! ## Nobody has to wait any more -/

theorem exists_step_of_cancelled (calendar : Nat → String) (cancelled : last.cancelled = true)
    (found : last.users[index]? = some user) (equipped : user.Equipped)
    (running : user.phase.isEnded = false) :
    (∃ next, last.step? calendar (.cancel index) = some next) ∨
      ∃ next, last.step? calendar (.proceed index) = some next := by
  have sees : (last.cancelUser? user).isSome = true →
      ∃ next, last.step? calendar (.cancel index) = some next := by
    intro possible
    obtain ⟨moved, possible⟩ := Option.isSome_iff_exists.mp possible
    exact ⟨last.setUser index moved, by simp [step?, found, possible]⟩
  have goes : (last.proceedUser? user).isSome = true →
      ∃ next, last.step? calendar (.proceed index) = some next := by
    intro possible
    obtain ⟨⟨moved, rest⟩, possible⟩ := Option.isSome_iff_exists.mp possible
    exact ⟨rest.setUser index moved, by simp [step?, found, possible]⟩
  cases phase : user.phase with
  | connecting due | waitingForStart | awaiting sentAt deadline | pacing until_ =>
    exact .inl (sees (by simp [cancelUser?, cancelled, phase]))
  | answered sentAt =>
    have handle := equipped.handle
    rw [phase] at handle
    obtain ⟨held, isHandle⟩ := Option.isSome_iff_exists.mp handle
    exact .inr (goes (by simp [proceedUser?, phase, isHandle]))
  | ended exit =>
    rw [phase] at running
    cases running
  | probing | sent _ | unanswered | lost _ | stopping _ | stopped _ | flushed _ =>
    exact .inr (goes (by simp [proceedUser?, phase]))

/-! ## Steps at one moment -/

theorem rank_le (now : Nat) (phase : Phase) : rank now phase ≤ 11 := by
  cases phase with
  | pacing until_ =>
    simp only [rank]
    split <;> decide
  | _ => simp [rank]

theorem Turn.rank_le {move : Move} (turn : before.Turn move index user moved after)
    (paced : 1 ≤ before.settings.pacing) :
    (move.isOwn index).toNat + rank before.now moved.phase ≤ rank before.now user.phase := by
  have shift := turn.shift
  have about := turn.about
  generalize user.phase = phase at shift ⊢
  generalize moved.phase = next at shift ⊢
  cases shift with
  | cancel way | proceed way =>
    cases about
    have less := way.rank_lt paced
    simp only [Move.isOwn, decide_true, Bool.toNat_true]
    omega
  | abort suspended =>
    cases about
    have less := rank_dropped_lt before.now suspended
    simp only [Move.isOwn, decide_true, Bool.toNat_true]
    omega
  | pump | line => simp [Move.isOwn]

private theorem isOwn_of_foreign (foreign : occurrence.user? ≠ some index) :
    Moment.isOwn index ⟨before, occurrence, after⟩ = false := by
  cases occurrence with
  | move taken =>
    cases taken with
    | cancel other | proceed other | abort other =>
      refine decide_eq_false ?_
      rintro rfl
      exact foreign rfl
    | _ => rfl
  | _ => rfl

/-- As long as time stands still, every step of a user brings it nearer to its end. -/
theorem Lives.own_steps_le (lives : first.Lives calendar moments last)
    (paced : 1 ≤ first.settings.pacing) (still : last.now = first.now)
    (found : last.users[index]? = some moved) :
    ∃ user, first.users[index]? = some user ∧
      moments.countP (·.isOwn index) + rank last.now moved.phase ≤
        rank first.now user.phase := by
  induction lives generalizing moved with
  | start => exact ⟨moved, found, by simp⟩
  | @step moments before after occurrence lives happens ih =>
    have earlier := lives.now_le
    have later := happens.now_le
    have standing : before.now = first.now := by omega
    have same : after.now = before.now := by omega
    rw [← lives.settings] at paced
    obtain ⟨was, there, ⟨move, rfl, turn⟩ | ⟨foreign, rfl⟩⟩ := happens.user found
    · obtain ⟨user, isUser, bound⟩ := ih standing there
      refine ⟨user, isUser, ?_⟩
      have less := turn.rank_le paced
      have isOwn : Moment.isOwn index ⟨before, .move move, after⟩ = move.isOwn index := rfl
      rw [List.countP_append, List.countP_singleton, isOwn, same]
      cases own : move.isOwn index <;> simp [own] at less ⊢ <;> omega
    · obtain ⟨user, isUser, bound⟩ := ih standing there
      refine ⟨user, isUser, ?_⟩
      rw [List.countP_append, List.countP_singleton, isOwn_of_foreign foreign, same]
      simpa using bound

/-! ## Probes and pauses -/

/-- How many probes a user can still send up to a time. -/
def allowance (pacing now limit : Nat) : Phase → Nat
  | .connecting _ | .waitingForStart | .probing => 1 + (limit - now) / pacing
  | .sent _ | .awaiting .. | .answered _ | .unanswered => (limit - now) / pacing
  | .pacing until_ => if until_ ≤ limit then 1 + (limit - max now until_) / pacing else 0
  | _ => 0

section Allowance

variable {pacing now limit : Nat}

private theorem allowance_le (pacing now limit : Nat) (phase : Phase) :
    allowance pacing now limit phase ≤ 1 + (limit - now) / pacing := by
  cases phase with
  | connecting _ | waitingForStart | probing => exact Nat.le_refl _
  | sent _ | awaiting _ _ | answered _ | unanswered => exact Nat.le_add_left _ _
  | pacing until_ =>
    rw [allowance]
    split
    · have fewer : limit - max now until_ ≤ limit - now :=
        Nat.sub_le_sub_left (Nat.le_max_left _ _) _
      exact Nat.add_le_add_left (Nat.div_le_div_right fewer) 1
    · exact Nat.zero_le _
  | _ => exact Nat.zero_le _

private theorem allowance_dropped (phase : Phase) :
    allowance pacing now limit phase.dropped = 0 := by
  rw [Phase.dropped]
  split <;> rfl

private theorem allowance_later {later : Nat} (pacing limit : Nat) (phase : Phase)
    (ahead : now ≤ later) :
    allowance pacing later limit phase ≤ allowance pacing now limit phase := by
  have fewer : (limit - later) / pacing ≤ (limit - now) / pacing :=
    Nat.div_le_div_right (Nat.sub_le_sub_left ahead _)
  cases phase with
  | connecting _ | waitingForStart | probing => exact Nat.add_le_add_left fewer 1
  | sent _ | awaiting _ _ | answered _ | unanswered => exact fewer
  | pacing until_ =>
    rw [allowance, allowance]
    split
    · have least : limit - max later until_ ≤ limit - max now until_ := by omega
      exact Nat.add_le_add_left (Nat.div_le_div_right least) 1
    · exact Nat.le_refl _
  | _ => exact Nat.le_refl _

/-- A pause that begins costs the probe that could be sent at once. -/
theorem allowance_pause (paced : 1 ≤ pacing) (within : now ≤ limit) :
    allowance pacing now limit (.pacing (now + pacing)) ≤ (limit - now) / pacing := by
  rw [allowance]
  split
  · have later : max now (now + pacing) = now + pacing := Nat.max_eq_right (Nat.le_add_right _ _)
    rw [later, Nat.div_eq_sub_div paced (by omega : pacing ≤ limit - now), Nat.sub_sub]
    omega
  · exact Nat.zero_le _

private theorem Way.allowance_le {phase next : Phase} (way : Way before phase next)
    (paced : 1 ≤ before.settings.pacing) (within : before.now ≤ limit) :
    (phase.sends next).toNat + allowance before.settings.pacing before.now limit next ≤
      allowance before.settings.pacing before.now limit phase := by
  cases way with
  | measure sentAt | pass =>
    simp only [Phase.sends, Bool.toNat_false, Nat.zero_add]
    exact allowance_pause paced within
  | again until_ due =>
    have passed : max before.now until_ = before.now := Nat.max_eq_left due
    simp [allowance, Phase.sends, passed, Nat.le_trans due within]
  | leave suspended linked _ =>
    cases phase <;> exact Nat.zero_le _
  | fail | refused | close | lose | stop | giveUp | unlink | flush | finish =>
    exact Nat.zero_le _
  | connect | begin | send | count | hear | expire =>
    simp [allowance, Phase.sends]

end Allowance

private theorem Turn.sent_le {move : Move} {limit : Nat}
    (turn : before.Turn move index user moved after) (paced : 1 ≤ before.settings.pacing)
    (within : before.now ≤ limit) :
    after.sent user.id + allowance before.settings.pacing before.now limit moved.phase ≤
      before.sent user.id + allowance before.settings.pacing before.now limit user.phase := by
  have probes : after.sent user.id =
      before.sent user.id + (user.phase.sends moved.phase).toNat := by
    rw [sent, sent, turn.probes]
    cases user.phase.sends moved.phase <;> simp
  rw [probes]
  have shift := turn.shift
  generalize user.phase = phase at shift ⊢
  generalize moved.phase = next at shift ⊢
  cases shift with
  | cancel way | proceed way =>
    have law := way.allowance_le paced within
    omega
  | abort suspended =>
    simp [Phase.sends_dropped, allowance_dropped]
  | pump | line => simp [Phase.sends_self]

/-! ### Other users' probes -/

theorem Happens.ids (happens : before.Happens calendar occurrence after) :
    after.users.map User.id = before.users.map User.id := by
  rcases happens.cases with ⟨_, index, user, moved, _, turn⟩ | aside
  · have isId : (before.users.map User.id)[index]? = some moved.id := by
      rw [List.getElem?_map, turn.found, Option.map_some, turn.id]
    obtain ⟨inside, isId⟩ := List.getElem?_eq_some_iff.mp isId
    rw [turn.users, List.map_set, ← isId]
    exact List.set_getElem_self _
  · rw [aside.users]

theorem Lives.ids (lives : first.Lives calendar moments last) :
    last.users.map User.id = first.users.map User.id := by
  induction lives with
  | start => rfl
  | step _ happens ih => exact happens.ids.trans ih

private theorem index_of_id {users : List User} (distinct : (users.map User.id).Nodup) {other : Nat}
    {first second : User} (isFirst : users[index]? = some first)
    (isSecond : users[other]? = some second) (same : first.id = second.id) : index = other := by
  have equal : (users.map User.id)[index]? = (users.map User.id)[other]? := by
    rw [List.getElem?_map, List.getElem?_map, isFirst, isSecond, Option.map_some, Option.map_some,
      same]
  have inside : index < (users.map User.id).length := by
    rw [List.length_map]
    exact (List.getElem?_eq_some_iff.mp isFirst).1
  exact (List.getElem?_inj inside distinct).mp equal

private theorem Happens.sent_of_foreign (happens : before.Happens calendar occurrence after)
    (distinct : (before.users.map User.id).Nodup) (found : before.users[index]? = some user)
    (foreign : occurrence.user? ≠ some index) : after.sent user.id = before.sent user.id := by
  rcases happens.cases with ⟨move, other, speaker, next, rfl, turn⟩ | aside
  · have other : speaker.id ≠ user.id := by
      intro same
      have isIndex := index_of_id distinct turn.found found same
      exact foreign (by rw [Occurrence.user?, turn.about, isIndex])
    rw [sent, sent, turn.probes]
    split
    · rw [List.countP_cons_of_neg (by simpa using other)]
    · rfl
  · rw [sent, sent, aside.probes]

/-- A user sends at most one probe, and one more for each pause that fits into the time. -/
theorem Lives.sent_le (lives : first.Lives calendar moments last)
    (distinct : (first.users.map User.id).Nodup) (paced : 1 ≤ first.settings.pacing) {limit : Nat}
    (within : last.now ≤ limit) (found : last.users[index]? = some moved) :
    ∃ user, first.users[index]? = some user ∧ user.id = moved.id ∧
      last.sent moved.id + allowance first.settings.pacing last.now limit moved.phase ≤
        first.sent moved.id + allowance first.settings.pacing first.now limit user.phase := by
  induction lives generalizing moved with
  | start => exact ⟨moved, found, rfl, Nat.le_refl _⟩
  | @step moments before after occurrence lives happens ih =>
    have still : before.now ≤ limit := Nat.le_trans happens.now_le within
    obtain ⟨was, there, happened⟩ := happens.user found
    obtain ⟨user, isUser, sameId, bound⟩ := ih still there
    -- Time that passes only takes from what can still be sent, so one user's step decides.
    have waits := allowance_later first.settings.pacing limit moved.phase happens.now_le
    rcases happened with ⟨move, rfl, turn⟩ | ⟨foreign, rfl⟩
    · have less := turn.sent_le (lives.settings ▸ paced) still
      rw [lives.settings] at less
      refine ⟨user, isUser, sameId.trans turn.id.symm, ?_⟩
      rw [turn.id]
      omega
    · have silent := happens.sent_of_foreign (lives.ids ▸ distinct) there foreign
      refine ⟨user, isUser, sameId, ?_⟩
      omega

/-! ## What becomes of a user -/

/-- What becomes of a user once cancellation has been signalled: it has ended or can go on at once,
as long as time stands still it has only so many steps left, and it sends one more probe at most,
and one for each pause that fits into the time. -/
structure WoundDown (calendar : Nat → String) (signalled last : Population)
    (later : List Moment) (index : Nat) (user : User) : Prop where
  goesOn : user.phase.isEnded = true ∨
    (∃ next, last.step? calendar (.cancel index) = some next) ∨
    ∃ next, last.step? calendar (.proceed index) = some next
  steps : last.now = signalled.now → later.countP (·.isOwn index) ≤ 11
  sent : last.sent user.id ≤
    signalled.sent user.id + 1 + (last.now - signalled.now) / signalled.settings.pacing

theorem Lives.woundDown (lives : first.Lives calendar moments last)
    (equipped : ∀ user ∈ first.users, user.Equipped) (distinct : (first.users.map User.id).Nodup)
    (paced : 1 ≤ first.settings.pacing) (cancelled : first.cancelled = true)
    (found : last.users[index]? = some user) :
    WoundDown calendar first last moments index user where
  goesOn := by
    cases ended : user.phase.isEnded with
    | true => exact .inl rfl
    | false =>
      exact .inr (exists_step_of_cancelled calendar (lives.cancelled_of_cancelled cancelled) found
        (lives.equipped equipped user (List.mem_of_getElem? found)) ended)
  steps still := by
    obtain ⟨was, _, bound⟩ := lives.own_steps_le paced still found
    have atMost := rank_le first.now was.phase
    omega
  sent := by
    obtain ⟨was, _, _, bound⟩ := lives.sent_le distinct paced (Nat.le_refl last.now) found
    have atMost := allowance_le first.settings.pacing first.now last.now was.phase
    omega

theorem Lives.linkFailures_of_cancelled (lives : first.Lives calendar moments last)
    (cancelled : first.cancelled = true) :
    last.counters.linkFailures = first.counters.linkFailures := by
  induction lives with
  | start => rfl
  | @step moments before after occurrence lives happens ih =>
    rw [← ih]
    rcases happens.cases with ⟨move, index, user, moved, _, turn⟩ | aside
    · have counted : after.counters.linkFailures = before.counters.linkFailures + _ :=
        turn.get_counters .linkFailure
      have change := turn.shift.counted UserExit.counted?_linkLost
      have same : moved.phase.exit = some .linkLost ↔ user.phase.exit = some .linkLost := by
        refine ⟨fun left => ?_, turn.shift.exit_eq⟩
        rcases turn.shift.of_linkLost left with already | ⟨_, kept⟩
        · exact already
        · rw [lives.cancelled_of_cancelled cancelled] at kept
          cases kept
      simp only [same] at change
      omega
    · rw [aside.counters]

end Population

end ChatHub
