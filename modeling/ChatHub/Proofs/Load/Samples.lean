import ChatHub.Proofs.Load.Traffic
import Mathlib.Algebra.BigOperators.Group.Finset.Piecewise
import Mathlib.Algebra.Order.BigOperators.Group.Finset
/-!
Where samples come from: every one of them is a message of someone else, taken out of the mailbox
of the user that recorded it. Main statement: `Population.samples_from_others`.
-/

set_option autoImplicit false

namespace ChatHub

open Finset (range)

/-! ## One step of one user -/

namespace Phase

theorem Next.measured {phase next : Phase} (course : phase.Next next) (stopwatch : Nat) :
    gain UserEvent.isMeasured stopwatch phase next + next.isAnswered.toNat =
      phase.isAnswered.toNat + (phase.hears next).toNat := by
  cases course with
  | leave exit suspended linked exits =>
    rcases exits with rfl | rfl <;> cases phase <;> first | rfl | cases suspended
  | giveUpConnecting due exit exits => rcases exits with rfl | rfl <;> rfl
  | lose state exit exits => rcases exits with rfl | rfl <;> cases state <;> rfl
  | _ => rfl

theorem Next.not_connecting {phase next : Phase} (course : phase.Next next) (due : Option Nat) :
    next ≠ .connecting due := by
  cases course <;> exact nofun

end Phase

/-- What a user did at a moment that shows up in the numbers of a run. -/
def Moment.event? (moment : Moment) : Option (Nat × UserEvent) :=
  match moment.occurrence with
  | .move move => moment.before.event? move moment.after
  | _ => none

/-- How many messages of others a user's mailbox gets at a moment. -/
def Moment.hears (calendar : Nat → String) (index : Nat) (moment : Moment) : Nat :=
  (moment.before.connectionAt index).elim 0 fun own =>
    (Hub.heard own true (moment.hubEvents calendar)).length

/-- How many deliveries the hub reports for an event. -/
def Hub.delivered (hub : Hub) : Hub.Event → Nat
  | .published origin message =>
    (hub.publish origin message.inbound message.timestamp).1.delivered
  | _ => 0

/-- How many deliveries the hub reports at a moment. -/
def Moment.delivered (calendar : Nat → String) (moment : Moment) : Nat :=
  ((moment.hubEvents calendar).map moment.before.hub.delivered).sum

namespace Population

/-- The messages of others that a user has not made samples of: one that it has taken out of its
mailbox, and those that are queued there. -/
def unsampled (population : Population) (index : Nat) : Nat :=
  population.users[index]?.elim 0 fun user =>
    user.phase.isAnswered.toNat +
      user.connection?.elim 0 fun own => (population.hub.queued own).length

section Happens

variable {calendar : Nat → String} {before after : Population} {occurrence : Occurrence}
  {index : Nat} {user moved : User} {own : ConnectionId}

private theorem Happens.event?_eq_none (happens : before.Happens calendar occurrence after)
    (about : occurrence.user? = none) : Moment.event? ⟨before, occurrence, after⟩ = none := by
  cases happens with
  | move _ =>
    rw [Occurrence.user?] at about
    simp [Moment.event?, Population.event?, about]
  | _ => rfl

theorem Happens.tallyOf (happens : before.Happens calendar occurrence after)
    (found : before.users[index]? = some user) (there : after.users[index]? = some moved)
    (test : UserEvent → Bool) (history : List (Nat × UserEvent)) :
    History.tallyOf test index
        (history ++ (Moment.event? ⟨before, occurrence, after⟩).toList) =
      History.tallyOf test index history +
        Phase.gain test before.stopwatch user.phase moved.phase := by
  rcases happens.cases with ⟨move, other, was, next, rfl, turn⟩ | aside
  · have isMoved := turn.getElem? index
    obtain ⟨rest, effect, rfl⟩ := turn.effect
    have event : Moment.event? ⟨before, .move move, rest.setUser other next⟩ = _ :=
      event?_setUser turn.about turn.found effect
    rw [event, History.tallyOf_append]
    rw [there] at isMoved
    by_cases same : index = other
    · subst same
      cases found.symm.trans turn.found
      rw [if_pos rfl] at isMoved ⊢
      cases isMoved
      rfl
    · rw [if_neg same, found] at isMoved
      cases isMoved
      rw [if_neg (Ne.symm same), Phase.gain_self]
  · rw [aside.users, found] at there
    cases there
    rw [happens.event?_eq_none aside.about, Option.toList_none, List.append_nil, Phase.gain_self,
      Nat.add_zero]

theorem Happens.course (happens : before.Happens calendar occurrence after)
    (found : before.users[index]? = some user) (there : after.users[index]? = some moved) :
    moved.phase = user.phase ∨ user.phase.Next moved.phase := by
  obtain ⟨_, isUser, ⟨_, _, turn⟩ | ⟨_, rfl⟩⟩ := happens.user there
  · cases found.symm.trans isUser
    obtain ⟨_, effect, _⟩ := turn.effect
    exact effect.course
  · cases found.symm.trans isUser
    exact .inl rfl

theorem Happens.measured (happens : before.Happens calendar occurrence after)
    (found : before.users[index]? = some user) (there : after.users[index]? = some moved) :
    Phase.gain UserEvent.isMeasured before.stopwatch user.phase moved.phase +
        moved.phase.isAnswered.toNat =
      user.phase.isAnswered.toNat + (user.phase.hears moved.phase).toNat := by
  rcases happens.course found there with same | course
  · rw [same, Phase.gain_self, Phase.hears_self]
    exact Nat.zero_add _
  · exact course.measured _

/-- Whatever becomes of a probe that is open, the hub does not take part in it, unless its user
hears something. -/
theorem Happens.hub_of_unheard (happens : before.Happens calendar occurrence after)
    (seated : before.Seated) (found : before.users[index]? = some user)
    (there : after.users[index]? = some moved) (isOpen : user.phase.isOpen = true)
    (changed : moved.phase ≠ user.phase) (unheard : moved.phase.isAnswered = false) :
    after.hub = before.hub := by
  obtain ⟨move, rfl, turn, step | rests⟩ | ⟨_, rfl⟩ := happens.view seated found there
  · have task := step.task
    generalize after.hub = hub at task ⊢
    cases task with
    | alone | send | close => rfl
    | connect connecting =>
      rw [connecting] at isOpen
      cases isOpen
    | hear _ answered =>
      rw [answered] at unheard
      cases unheard
    | unlink stopping =>
      rw [stopping] at isOpen
      cases isOpen
    | pump phase => exact absurd phase changed
  · exact rests.hub
  · exact absurd rfl changed

theorem unsampled_of_found {population : Population}
    (found : population.users[index]? = some user) :
    population.unsampled index = user.phase.isAnswered.toNat +
      user.connection?.elim 0 fun own => (population.hub.queued own).length := by
  rw [unsampled, found, Option.elim_some]

/-- A mailbox gets what others publish and loses what its user takes. -/
theorem Happens.length_queued (happens : before.Happens calendar occurrence after)
    (seated : before.Seated) (found : before.users[index]? = some user)
    (there : after.users[index]? = some moved) (connected : user.connection? = some own)
    (connects : moved.connection? = some own) :
    (user.phase.hears moved.phase).toNat + (after.hub.queued own).length =
      (before.hub.queued own).length +
        Moment.hears calendar index ⟨before, occurrence, after⟩ := by
  have attached := (seated.attached_of_found found own connected).1
  have isOpen := ((happens.seated seated).attached_of_found there own connects).2
  have law := (happens.hubRun seated.onHub).taken_append_queued seated.sound
    (Hub.isAbandoned_eq_false_of_isOpen isOpen)
  have lengths := congrArg List.length law
  rw [List.length_append, List.length_append, attached,
    happens.length_taken seated found there connected] at lengths
  rw [lengths, Moment.hears, connectionAt_of_found found, connected, Option.elim_some]

private theorem Happens.queued_of_new (happens : before.Happens calendar occurrence after)
    (seated : before.Seated) (there : after.users[index]? = some moved)
    (connects : moved.connection? = some before.hub.nextId)
    (events : Moment.hubEvents calendar ⟨before, occurrence, after⟩ =
      [.attached before.hub.nextId]) : after.hub.queued before.hub.nextId = [] := by
  have isOpen := ((happens.seated seated).attached_of_found there _ connects).2
  have absent := seated.sound.fresh (Nat.le_refl before.hub.nextId)
  have law := (happens.hubRun seated.onHub).taken_append_queued seated.sound
    (Hub.isAbandoned_eq_false_of_isOpen isOpen)
  rw [events] at law
  simpa [Hub.taken, Hub.Event.takenFrom, Hub.heard, Hub.Event.heardBy, Hub.queued, absent] using law

/-- What a user has made samples of and what it may still do so grows only by what its mailbox
gets from others. -/
theorem Happens.sampled (happens : before.Happens calendar occurrence after)
    (seated : before.Seated) (found : before.users[index]? = some user)
    (there : after.users[index]? = some moved) (history : List (Nat × UserEvent)) :
    History.tallyOf UserEvent.isMeasured index
        (history ++ (Moment.event? ⟨before, occurrence, after⟩).toList) + after.unsampled index ≤
      History.tallyOf UserEvent.isMeasured index history + before.unsampled index +
        Moment.hears calendar index ⟨before, occurrence, after⟩ := by
  have measured := happens.measured found there
  -- Hearing takes a link before and after, so a user that connects or lets go hears nothing.
  have deaf : user.connection? = none ∨ moved.connection? = none →
      user.phase.hears moved.phase = false := by
    intro unlinked
    refine Bool.eq_false_iff.mpr ?_
    intro hears
    obtain ⟨_, _, _, awaiting, answered⟩ := Phase.eq_of_hears hears
    have first := (seated.onHub user (List.mem_of_getElem? found)).connected
    have second := ((happens.seated seated).onHub moved (List.mem_of_getElem? there)).connected
    rw [awaiting] at first
    rw [answered] at second
    rcases unlinked with alone | alone
    · rw [alone] at first
      cases first
    · rw [alone] at second
      cases second
  rw [happens.tallyOf found there, unsampled_of_found found, unsampled_of_found there]
  cases connects : moved.connection? with
  | none =>
    rw [deaf (.inr connects)] at measured
    rw [Option.elim_none, Nat.add_zero]
    simp only [Bool.toNat_false] at measured
    omega
  | some own =>
    rw [Option.elim_some]
    rcases happens.connection seated found there connects with
      connected | ⟨alone, rfl, _, events⟩
    · have queued := happens.length_queued seated found there connected connects
      rw [connected, Option.elim_some]
      omega
    · rw [happens.queued_of_new seated there connects events, List.length_nil, alone,
        Option.elim_none]
      rw [deaf (.inl alone)] at measured
      simp only [Bool.toNat_false] at measured
      omega

private theorem Happens.published_or_silent (happens : before.Happens calendar occurrence after) :
    let events := Moment.hubEvents calendar ⟨before, occurrence, after⟩
    (∃ origin message, events = [.published origin message]) ∨
      ∀ origin message, .published origin message ∉ events := by
  intro events
  cases happens with
  | @peer event _ _ _ =>
    cases event with
    | published origin message => exact .inl ⟨origin, message, rfl⟩
    | _ => exact .inr (by simp [events, Moment.hubEvents])
  | opened | cancelled | beginPhase | gather => exact .inr (by simp [events, Moment.hubEvents])
  | @move move _ possible =>
    cases about : move.user? with
    | none =>
      cases move with
      | publish origin message => exact .inl ⟨origin, _, rfl⟩
      | advance _ | measure _ => exact .inr (by simp [events, Moment.hubEvents, about])
      | _ => cases about
    | some other =>
      by_cases pumped : move = .pump other
      · subst pumped
        cases relayed : before.users[other]?.bind (User.pumpEvent? (calendar before.now)) with
        | none =>
          right
          simp [events, Moment.hubEvents, relayed]
        | some event =>
          have single : events = [event] := by simp [events, Moment.hubEvents, relayed]
          obtain ⟨origin, message, rfl⟩ := published_of_pump
            (show event ∈ events by rw [single]; exact List.mem_singleton_self event)
          exact .inl ⟨origin, message, single⟩
      · obtain ⟨user, moved, turn⟩ := turn_of_step? about possible
        have isMoved := turn.getElem? other
        rw [if_pos rfl] at isMoved
        have same : events = user.hubEvents before.hub moved :=
          hubEvents_about about turn.found isMoved pumped
        right
        intro origin message
        rw [same, User.hubEvents]
        split
        · simp
        · simp
        · split <;> simp
        · simp

/-- The hub delivers what is published to all users but its origin, and may do so to others. -/
theorem Seated.countP_le (seated : before.Seated) (origin : ConnectionId) (message : Inbound)
    (timestamp : String) :
    ((range before.users.length).filter fun index =>
        (before.connectionAt index).any (· ≠ origin)).card ≤
      (before.hub.publish origin message timestamp).1.delivered := by
  let targets := (before.hub.snapshot origin).filter fun target => before.hub.isOpen target.2
  have report : (before.hub.publish origin message timestamp).1.delivered = targets.length := by
    rw [(before.hub.publish_report origin message timestamp).1, List.countP_eq_length_filter]
  have inside : ∀ index ∈ (range before.users.length).filter fun index =>
      (before.connectionAt index).any (· ≠ origin),
      ∃ own, before.connectionAt index = some own ∧ own ∈ (targets.map Prod.snd).toFinset := by
    intro index member
    obtain ⟨_, other⟩ := Finset.mem_filter.mp member
    cases connected : before.connectionAt index with
    | none =>
      rw [connected] at other
      cases other
    | some own =>
      rw [connected, Option.any_some, decide_eq_true_eq] at other
      obtain ⟨attached, isOpen⟩ := seated.attached connected
      obtain ⟨target, listed, rfl⟩ :=
        List.mem_map.mp (seated.sound.mem_snapshot.mpr ⟨attached, other⟩)
      refine ⟨_, rfl, List.mem_toFinset.mpr (List.mem_map_of_mem ?_)⟩
      exact List.mem_filter.mpr ⟨listed, isOpen⟩
  -- No two users share a connection, so there are no more of them than targets.
  rw [report, ← List.length_map Prod.snd]
  refine Nat.le_trans ?_ (List.toFinset_card_le _)
  refine Finset.card_le_card_of_injOn (fun index => (before.connectionAt index).getD 0) ?_ ?_
  · intro index member
    obtain ⟨own, connected, listed⟩ := inside index member
    simp only [connected, Option.getD_some]
    exact listed
  · intro first isFirst second isSecond same
    obtain ⟨own, connected, _⟩ := inside first isFirst
    obtain ⟨other, connectedToo, _⟩ := inside second isSecond
    simp only [connected, connectedToo, Option.getD_some] at same
    exact seated.own connected (same ▸ connectedToo)

private theorem Happens.sum_hears_le (happens : before.Happens calendar occurrence after)
    (seated : before.Seated) :
    ∑ index ∈ range before.users.length, Moment.hears calendar index ⟨before, occurrence, after⟩ ≤
      Moment.delivered calendar ⟨before, occurrence, after⟩ := by
  rcases happens.published_or_silent with ⟨origin, message, events⟩ | silent
  · have each : ∀ index, Moment.hears calendar index ⟨before, occurrence, after⟩ =
        if (before.connectionAt index).any (· ≠ origin) = true then 1 else 0 := by
      intro index
      rw [Moment.hears, events]
      cases before.connectionAt index with
      | none => rfl
      | some own =>
        by_cases mine : own = origin
        · simp [Hub.heard, Hub.Event.heardBy, mine]
        · simp [Hub.heard, Hub.Event.heardBy, mine, Ne.symm mine]
    simp only [each, ← Finset.card_filter, Moment.delivered, events, List.map_cons, List.map_nil,
      List.sum_cons, List.sum_nil, Nat.add_zero, Hub.delivered]
    exact seated.countP_le origin _ _
  · have deaf : ∀ index, Moment.hears calendar index ⟨before, occurrence, after⟩ = 0 := by
      intro index
      rw [Moment.hears]
      cases before.connectionAt index with
      | none => rfl
      | some own =>
        rw [Option.elim_some, Hub.heard_eq_nil (fun origin message _ => silent origin message) true,
          List.length_nil]
    simp only [deaf, Finset.sum_const_zero]
    exact Nat.zero_le _

end Happens

/-! ## Whole lives -/

section Lives

variable {calendar : Nat → String} {first last : Population} {moments : List Moment}
  {index : Nat} {user : User} {own : ConnectionId}

theorem Fresh.seated (fresh : first.Fresh) (sound : first.hub.Sound)
    (onHub : ∀ user ∈ first.users, user.OnHub) : first.Seated := by
  have nobody : ∀ index, first.connectionAt index = none := by
    intro index
    cases found : first.users[index]? with
    | none => rw [connectionAt, found, Option.bind_none]
    | some user =>
      have member := List.mem_of_getElem? found
      obtain ⟨due, phase⟩ := fresh.connecting user member
      rw [connectionAt_of_found found]
      exact (onHub user member).connection?_eq_none (by rw [phase]; rfl)
  refine { sound := sound, onHub := onHub, own := ?_, attached := ?_ }
  · intro index other id connected
    rw [nobody] at connected
    cases connected
  · intro index id connected
    rw [nobody] at connected
    cases connected

theorem Lives.seated (lives : first.Lives calendar moments last) (seated : first.Seated) :
    last.Seated := by
  induction lives with
  | start => exact seated
  | step _ happens ih => exact happens.seated ih

theorem Lives.of_mem (lives : first.Lives calendar moments last) {moment : Moment}
    (member : moment ∈ moments) :
    ∃ earlier, first.Lives calendar earlier moment.before ∧
      moment.before.Happens calendar moment.occurrence moment.after := by
  induction lives with
  | start => cases member
  | step lives happens ih =>
    rcases List.mem_append.mp member with old | new
    · exact ih old
    · rw [List.mem_singleton] at new
      subst new
      exact ⟨_, lives, happens⟩

theorem Lives.hubRun (lives : first.Lives calendar moments last) (seated : first.Seated) :
    Hub.Run first.hub (moments.flatMap (Moment.hubEvents calendar)) last.hub := by
  induction lives with
  | start => exact .nil
  | step lives happens ih =>
    rw [List.flatMap_append, List.flatMap_singleton]
    exact ih.append (happens.hubRun (lives.seated seated).onHub)

theorem filterMap_snoc (moments : List Moment) (moment : Moment) :
    (moments ++ [moment]).filterMap Moment.event? =
      moments.filterMap Moment.event? ++ moment.event?.toList := by
  rw [List.filterMap_append]
  cases event : moment.event? with
  | none => rw [List.filterMap_cons_none event, List.filterMap_nil, Option.toList_none]
  | some _ => rw [List.filterMap_cons_some event, List.filterMap_nil, Option.toList_some]

theorem Lives.recorded (lives : first.Lives calendar moments last) :
    last.recorder.received + last.held =
      first.recorder.received + first.held +
        Histogram.ofLatencies (History.latencies (moments.filterMap Moment.event?)) := by
  induction lives with
  | start => exact (add_zero _).symm
  | @step moments before after occurrence _ happens ih =>
    rw [filterMap_snoc]
    rcases happens.cases with ⟨move, other, was, next, rfl, turn⟩ | aside
    · obtain ⟨rest, effect, rfl⟩ := turn.effect
      have event : Moment.event? ⟨before, .move move, rest.setUser other next⟩ = _ :=
        event?_setUser turn.about turn.found effect
      rw [effect.recorded turn.found, ih, event, History.latencies_append,
        Histogram.ofLatencies_append, add_assoc]
    · rw [happens.event?_eq_none aside.about, Option.toList_none, List.append_nil, aside.received,
        Population.held, aside.users]
      exact ih

/-- What a user has taken from its mailbox is what it has made samples of, but for a message that it
is about to. -/
structure Listened (calendar : Nat → String) (first : Population) (moments : List Moment)
    (index : Nat) (user : User) : Prop where
  outside : ∀ due, user.phase = .connecting due →
    History.tallyOf UserEvent.isMeasured index (moments.filterMap Moment.event?) = 0
  late : ∀ own, user.connection? = some own → first.hub.nextId ≤ own
  taken : ∀ own, user.connection? = some own →
    History.tallyOf UserEvent.isMeasured index (moments.filterMap Moment.event?) +
        user.phase.isAnswered.toNat =
      (Hub.taken own (moments.flatMap (Moment.hubEvents calendar))).length

theorem Listened.step {before after : Population} {occurrence : Occurrence} {moved : User}
    (listened : Listened calendar first moments index user) (seated : first.Seated)
    (lives : first.Lives calendar moments before)
    (happens : before.Happens calendar occurrence after) (found : before.users[index]? = some user)
    (there : after.users[index]? = some moved) :
    Listened calendar first (moments ++ [⟨before, occurrence, after⟩]) index moved := by
  have seatedNow := lives.seated seated
  have run := lives.hubRun seated
  have measured := happens.measured found there
  refine { outside := ?_, late := ?_, taken := ?_ }
  · intro due connecting
    have same : moved.phase = user.phase := by
      rcases happens.course found there with same | course
      · exact same
      · exact absurd connecting (course.not_connecting due)
    rw [filterMap_snoc, happens.tallyOf found there, same, Phase.gain_self, Nat.add_zero]
    exact listened.outside due (same.symm.trans connecting)
  · intro own connects
    rcases happens.connection seatedNow found there connects with connected | ⟨_, rfl, _⟩
    · exact listened.late own connected
    · exact run.nextId_le seated.sound
  · intro own connects
    rw [filterMap_snoc, happens.tallyOf found there, List.flatMap_append, List.flatMap_singleton,
      Hub.taken_append, List.length_append]
    rcases happens.connection seatedNow found there connects with
      connected | ⟨_, rfl, ⟨due, connecting⟩, events⟩
    · rw [← listened.taken own connected,
        happens.length_taken seatedNow found there connected]
      omega
    · rw [run.taken_eq_nil seated.sound (Nat.le_refl _), events,
        listened.outside due connecting]
      rw [connecting] at measured ⊢
      simpa [Phase.isAnswered, Phase.hears, Hub.taken, Hub.Event.takenFrom] using measured

theorem Lives.listened (lives : first.Lives calendar moments last) (fresh : first.Fresh)
    (seated : first.Seated) (found : last.users[index]? = some user) :
    Listened calendar first moments index user := by
  induction lives generalizing user with
  | start =>
    have member := List.mem_of_getElem? found
    obtain ⟨due, phase⟩ := fresh.connecting user member
    have alone := (seated.onHub user member).connection?_eq_none (by rw [phase]; rfl)
    refine { outside := fun _ _ => rfl, late := ?_, taken := ?_ }
    · intro own connected
      rw [alone] at connected
      cases connected
    · intro own connected
      rw [alone] at connected
      cases connected
  | step lives happens ih =>
    obtain ⟨was, there, _⟩ := happens.user found
    exact (ih there).step seated lives happens there found

/-- No user makes more samples than its mailbox gets messages from others. -/
theorem Lives.sampled (lives : first.Lives calendar moments last) (fresh : first.Fresh)
    (seated : first.Seated) (found : last.users[index]? = some user) :
    History.tallyOf UserEvent.isMeasured index (moments.filterMap Moment.event?) +
        last.unsampled index ≤ (moments.map (Moment.hears calendar index)).sum := by
  induction lives generalizing user with
  | start =>
    have member := List.mem_of_getElem? found
    obtain ⟨due, phase⟩ := fresh.connecting user member
    have alone := (seated.onHub user member).connection?_eq_none (by rw [phase]; rfl)
    rw [unsampled_of_found found, phase, alone]
    exact Nat.le_refl _
  | step lives happens ih =>
    obtain ⟨was, there, _⟩ := happens.user found
    have step := happens.sampled (lives.seated seated) there found
    have before := ih there
    rw [filterMap_snoc, List.map_append, List.sum_append]
    refine Nat.le_trans (step _) ?_
    simpa using before

private theorem sum_map_le {α β : Type} (indices : Finset α) (moments : List β)
    (share : α → β → Nat) (whole : β → Nat)
    (each : ∀ moment ∈ moments, ∑ index ∈ indices, share index moment ≤ whole moment) :
    ∑ index ∈ indices, (moments.map (share index)).sum ≤ (moments.map whole).sum := by
  induction moments with
  | nil => simp
  | cons moment rest ih =>
    simp only [List.map_cons, List.sum_cons, Finset.sum_add_distrib]
    exact Nat.add_le_add (each moment List.mem_cons_self)
      (ih fun other member => each other (List.mem_cons_of_mem _ member))

theorem tally_eq_sum (test : UserEvent → Bool) {history : List (Nat × UserEvent)} {size : Nat}
    (known : ∀ entry ∈ history, entry.1 < size) :
    History.tally test history = ∑ index ∈ range size, History.tallyOf test index history := by
  induction history with
  | nil => simp [History.tally, History.tallyOf]
  | cons entry rest ih =>
    have inside := known entry List.mem_cons_self
    have before := ih fun other member => known other (List.mem_cons_of_mem _ member)
    rw [History.tally] at before
    simp only [History.tally, History.tallyOf, List.countP_cons, Finset.sum_add_distrib] at before ⊢
    rw [before]
    by_cases counted : test entry.2 = true
    · simp [counted, inside, Finset.sum_ite_eq]
    · simp [counted]

private theorem lt_of_event? {moment : Moment} {entry : Nat × UserEvent}
    (event : moment.event? = some entry) : entry.1 < moment.before.users.length := by
  rw [Moment.event?] at event
  split at event
  · simp only [Population.event?, Option.bind_eq_bind, Option.bind_eq_some_iff] at event
    obtain ⟨index, _, user, found, _, _, _, _, result⟩ := event
    cases result
    exact (List.getElem?_eq_some_iff.mp found).1
  · cases event

theorem Lives.known (lives : first.Lives calendar moments last) :
    ∀ entry ∈ moments.filterMap Moment.event?, entry.1 < last.users.length := by
  intro entry member
  obtain ⟨moment, isMoment, event⟩ := List.mem_filterMap.mp member
  obtain ⟨earlier, before, _⟩ := lives.of_mem isMoment
  rw [lives.length_users, ← before.length_users]
  exact lt_of_event? event

/-- All users together never make more samples than the hub delivers messages. -/
theorem Lives.tally_le (lives : first.Lives calendar moments last) (fresh : first.Fresh)
    (seated : first.Seated) :
    History.tally UserEvent.isMeasured (moments.filterMap Moment.event?) ≤
      (moments.map (Moment.delivered calendar)).sum := by
  rw [tally_eq_sum _ lives.known]
  calc ∑ index ∈ range last.users.length,
        History.tallyOf UserEvent.isMeasured index (moments.filterMap Moment.event?)
      ≤ ∑ index ∈ range last.users.length, (moments.map (Moment.hears calendar index)).sum := by
        refine Finset.sum_le_sum ?_
        intro index member
        have found := List.getElem?_eq_getElem (Finset.mem_range.mp member)
        exact Nat.le_trans (Nat.le_add_right _ _) (lives.sampled fresh seated found)
    _ ≤ (moments.map (Moment.delivered calendar)).sum := by
        refine sum_map_le _ moments (Moment.hears calendar) _ ?_
        intro moment member
        obtain ⟨earlier, before, happens⟩ := lives.of_mem member
        rw [lives.length_users, ← before.length_users]
        exact happens.sum_hears_le (before.seated seated)

theorem Lives.heard (lives : first.Lives calendar moments last) (fresh : first.Fresh)
    (seated : first.Seated) (found : last.users[index]? = some user)
    (connected : user.connection? = some own) :
    let events := moments.flatMap (Moment.hubEvents calendar)
    Hub.taken own events ++ last.hub.queued own = Hub.heard own false events := by
  have late := (lives.listened fresh seated found).late own connected
  have isOpen := ((lives.seated seated).attached_of_found found own connected).2
  have unattached : first.hub.isAttached own = false := by
    refine Bool.eq_false_iff.mpr ?_
    intro attached
    exact Nat.lt_irrefl _ (Nat.lt_of_lt_of_le (seated.sound.lt_nextId attached) late)
  have law := (lives.hubRun seated).taken_append_queued seated.sound
    (Hub.isAbandoned_eq_false_of_isOpen isOpen)
  rw [unattached] at law
  simpa [Hub.queued, seated.sound.fresh late] using law

/-- Samples come only from other connections. A user that holds its link and waits, for whatever it
may be, has recorded one sample for each message that it took from its mailbox; these and the queued
ones are what others have published since it was attached. Between taking a message and recording
its sample, where it does not wait, it has this one in hand. What all users have recorded never
exceeds what the hub delivered, where a publish counts as one move, with its report; an open probe
that ends without a message leaves the hub alone; and where nobody else publishes, nobody
records. -/
theorem samples_from_others (calendar : Nat → String) {past : List Hub.Event}
    (reached : Hub.Run {} past first.hub) (fresh : first.Fresh)
    (onHub : ∀ user ∈ first.users, user.OnHub) (lives : first.Lives calendar moments last) :
    let events := moments.flatMap (Moment.hubEvents calendar)
    let history := moments.filterMap Moment.event?
    Hub.Run first.hub events last.hub ∧
    (∀ index user, last.users[index]? = some user → user.phase.holdsLink = true →
      let samples := History.tallyOf UserEvent.isMeasured index history
      let inHand := user.phase.isAnswered.toNat
      ∃ own, user.connection? = some own ∧ first.hub.nextId ≤ own ∧
        (user.phase.isAnswered = false →
          samples + (last.hub.queued own).length = (Hub.heard own false events).length ∧
            samples = (Hub.taken own events).length) ∧
        samples + inHand + (last.hub.queued own).length = (Hub.heard own false events).length ∧
        samples + inHand = (Hub.taken own events).length ∧
        Hub.taken own events ++ last.hub.queued own = Hub.heard own false events ∧
        ∀ message ∈ Hub.heard own false events,
          ∃ origin, origin ≠ own ∧ .published origin message ∈ events) ∧
    last.recorder.received + last.held =
      first.recorder.received + first.held +
        Histogram.ofLatencies (History.latencies history) ∧
    (History.latencies history).length ≤ (moments.map (Moment.delivered calendar)).sum ∧
    (∀ moment ∈ moments, ∀ (index : Nat) (user moved : User),
      moment.before.users[index]? = some user →
      moment.after.users[index]? = some moved → user.phase.isOpen = true →
      moved.phase ≠ user.phase → moved.phase.isAnswered = false →
      moment.after.hub = moment.before.hub) ∧
    ∀ index user, last.users[index]? = some user →
      (∀ moment ∈ moments, ∀ origin message,
        .published origin message ∈ moment.hubEvents calendar →
        ∀ own, moment.before.connectionAt index = some own → origin = own) →
      History.tallyOf UserEvent.isMeasured index history = 0 := by
  intro events history
  have seated := fresh.seated (reached.sound Hub.sound_empty) onHub
  refine ⟨lives.hubRun seated, ?_, lives.recorded, ?_, ?_, ?_⟩
  · intro index user found holds samples inHand
    have linked := ((lives.seated seated).onHub user (List.mem_of_getElem? found)).connected
    rw [holds] at linked
    obtain ⟨own, connected⟩ := Option.isSome_iff_exists.mp linked
    have listened := lives.listened fresh seated found
    have taken := listened.taken own connected
    have heard := lives.heard fresh seated found connected
    have all : samples + inHand + (last.hub.queued own).length =
        (Hub.heard own false events).length := by
      rw [taken, ← List.length_append, heard]
    refine ⟨own, connected, listened.late own connected, ?_, all, taken, heard, ?_⟩
    · intro waits
      have nothing : inHand = 0 := congrArg Bool.toNat waits
      rw [nothing, Nat.add_zero] at all
      have alsoTaken : samples + inHand = _ := taken
      rw [nothing, Nat.add_zero] at alsoTaken
      exact ⟨all, alsoTaken⟩
    · intro message member
      exact Hub.published_of_mem_heard member
  · rw [History.length_latencies]
    exact lives.tally_le fresh seated
  · intro moment member index user moved found there isOpen changed unheard
    obtain ⟨earlier, before, happens⟩ := lives.of_mem member
    exact happens.hub_of_unheard (before.seated seated) found there isOpen changed unheard
  · intro index user found alone
    have nothing : (moments.map (Moment.hears calendar index)).sum = 0 := by
      refine List.sum_eq_zero ?_
      intro share member
      obtain ⟨moment, isMoment, rfl⟩ := List.mem_map.mp member
      rw [Moment.hears]
      cases connected : moment.before.connectionAt index with
      | none => rfl
      | some own =>
        have silent : ∀ origin message, origin ≠ own →
            .published origin message ∉ moment.hubEvents calendar :=
          fun origin message other published =>
            other (alone moment isMoment origin message published own connected)
        rw [Option.elim_some, Hub.heard_eq_nil silent true, List.length_nil]
    have law := lives.sampled fresh seated found
    rw [nothing] at law
    exact Nat.eq_zero_of_add_eq_zero_right (Nat.le_zero.mp law)

end Lives

/-- Two users on a hub with another peer. The second hears the first, and has not yet heard the
peer. -/
theorem samples_from_others_two :
    let user (id : Nat) : User :=
      { id, connector := .attach, link := none, phase := .connecting (some 0)
        handle := some ({} : LatencyRecorder).handle }
    let first : Population :=
      { settings := {}
        hub := (Hub.attach {}).2
        users := [user 0, user 1]
        start := { isOpen := true }
        completion := { remaining := 2 } }
    Hub.Run {} [.attached 1] first.hub ∧ first.Fresh ∧ (∀ user ∈ first.users, user.OnHub) ∧
      ∃ moments last, first.Lives (fun _ => "noon") moments last ∧
        let events := moments.flatMap (Moment.hubEvents fun _ => "noon")
        last.users[1]?.any (·.phase.holdsLink) = true ∧
        History.tallyOf UserEvent.isMeasured 1 (moments.filterMap Moment.event?) = 1 ∧
        (last.hub.queued 3).length = 1 ∧ (Hub.heard 3 false events).length = 2 ∧
        (Hub.taken 3 events).length = 1 ∧
        ∀ message ∈ Hub.heard 3 false events,
          ∃ origin, origin ≠ 3 ∧ .published origin message ∈ events := by
  intro user first
  have reached : Hub.Run {} [.attached 1] first.hub := (Hub.Step.attach {}).run
  have fresh : first.Fresh :=
    { connecting := by simp [first, user]
      handle := by simp [first, user]
      completion := rfl
      counters := rfl }
  have onHub : ∀ user ∈ first.users, user.OnHub := by
    intro other member
    simp only [first, List.mem_cons, List.not_mem_nil, or_false] at member
    rcases member with rfl | rfl <;> exact ⟨rfl, rfl⟩
  have lives : first.Lives (fun _ => "noon") _ _ :=
    Lives.start.follow
      [.proceed 0, .proceed 1, .proceed 0, .proceed 1, .proceed 0, .pump 0,
        .publish 1 ⟨"peer", "hello"⟩, .proceed 1, .proceed 1, .proceed 1, .measure 1500,
        .proceed 1] rfl
  obtain ⟨_, each, _⟩ := samples_from_others (fun _ => "noon") reached fresh onHub lives
  obtain ⟨own, connected, _, waiting, _, _, _, published⟩ := each 1 _ rfl rfl
  obtain ⟨heard, taken⟩ := waiting rfl
  obtain rfl : 3 = own := Option.some.inj connected
  refine ⟨reached, fresh, onHub, _, _, lives, rfl, ?_, ?_, ?_, ?_, published⟩
  · decide +kernel
  · decide +kernel
  · rw [← heard]
    decide +kernel
  · rw [← taken]
    decide +kernel

end Population

end ChatHub
