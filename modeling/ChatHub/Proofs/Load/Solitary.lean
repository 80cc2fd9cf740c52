import ChatHub.Load.Script
import ChatHub.Proofs.Load.Settling
import ChatHub.Proofs.Load.Unheard
/-!
A single user that hears nothing, between a start gate and a cancellation that come when they are
due: what it can do at one moment is bounded, so its schedule exists. Main statements:
`Solitary.winds` and `Expects.follow`, by which it has ended when the script is over.
-/

set_option autoImplicit false

namespace ChatHub

/-! ## What can be done at one moment -/

/-- How much a user that hears nothing can still do before it has to wait for a clock. -/
def Phase.errands (now : Nat) : Phase → Nat
  | .connecting _ => 13
  | .waitingForStart => 12
  | .awaiting _ deadline => if deadline ≤ now then 12 else 5
  | .answered _ | .unanswered => 11
  | .pacing until_ => if until_ ≤ now then 10 else 5
  | .probing => 9
  | .sent _ => 7
  | .lost _ => 4
  | .stopping _ => 3
  | .stopped _ => 2
  | .flushed _ => 1
  | .ended _ => 0

private theorem Phase.errands_le (now : Nat) (phase : Phase) : phase.errands now ≤ 13 := by
  cases phase with
  | awaiting _ _ | pacing _ =>
    simp only [errands]
    split <;> decide
  | _ => simp [errands]

/-- The same for a user with its pump. -/
def User.errands (now : Nat) (user : User) : Nat :=
  user.phase.errands now + user.backlog.length

namespace Population

/-- How much all users can still do. -/
def errands (population : Population) : Nat :=
  (population.users.map (User.errands population.now)).sum

variable {calendar : Nat → String} {first before after last population : Population}
  {move : Move} {opening span : Nat} {user moved : User}

private theorem Way.errands_lt {phase next : Phase} (way : Way population phase next)
    (bound : 1 ≤ population.settings.waitBound) (heedless : next.isAnswered = false) :
    next.errands population.now + (phase.sends next).toNat < phase.errands population.now := by
  cases way with
  | leave suspended linked _ =>
    cases phase with
    | waitingForStart => simp [Phase.errands, Phase.sends]
    | awaiting _ _ | pacing _ =>
      simp only [Phase.errands, Phase.sends]
      split <;> decide
    | connecting _ => cases linked
    | _ => cases suspended
  | hear => cases heedless
  | count sentAt =>
    have ahead : ¬ population.now + population.settings.waitBound ≤ population.now := by omega
    simp [Phase.errands, Phase.sends, ahead]
  | measure sentAt | pass =>
    simp only [Phase.errands, Phase.sends]
    split <;> decide
  | close sentAt deadline =>
    simp only [Phase.errands, Phase.sends]
    split <;> decide
  | expire _ _ due | again _ due => simp [Phase.errands, Phase.sends, due]
  | _ => simp [Phase.errands, Phase.sends]

private theorem Turn.errands_lt {index : Nat} (turn : Turn before move index user moved after)
    (isTask : move.isTask = true) (bound : 1 ≤ before.settings.waitBound)
    (heedless : moved.phase.isAnswered = false) : after.errands < before.errands := by
  have sum := LoadRun.sum_set turn.found moved (User.errands before.now)
  have less : moved.errands before.now < user.errands before.now := by
    have backlog := turn.backlog
    have shift := turn.shift
    rw [User.errands, User.errands]
    generalize user.phase = phase at shift backlog ⊢
    generalize moved.phase = next at shift backlog heedless ⊢
    cases shift with
    | cancel way | proceed way =>
      have less := way.errands_lt bound heedless
      omega
    | pump =>
      cases turn.about
      simp only [decide_true, Bool.toNat_true, Phase.sends_self, Bool.toNat_false] at backlog
      omega
    | abort _ | line => cases isTask
  rw [errands, errands, turn.users, turn.signals.now]
  omega

/-! ## One user -/

theorem Lives.books {moments : List Moment} (lives : first.Lives calendar moments last)
    (books : Books [] first) :
    Books (moments.filterMap Moment.event?) last := by
  induction lives with
  | start => exact books
  | @step moments before after occurrence _ happens ih =>
    rw [filterMap_snoc]
    cases happens with
    | move possible => exact ih.step possible
    | opened | cancelled | beginPhase | peer =>
      rw [Moment.event?, Option.toList_none, List.append_nil]
      exact ih.transfer rfl rfl rfl rfl
    | gather =>
      rw [Moment.event?, Option.toList_none, List.append_nil]
      exact ih.transfer rfl rfl (LatencyRecorder.received_gather _) rfl

/-- What can come of a population of one user that hears nothing, up to some moment. -/
structure Solitary (calendar : Nat → String) (first : Population) (opening span : Nat)
    (population : Population) : Prop where
  lives : ∃ moments, first.Lives calendar moments population ∧
    ∀ moment ∈ moments, moment.Lone calendar 0 opening span
  few : population.errands ≤ 13

namespace Solitary

theorem step {occurrence : Occurrence}
    (solitary : Solitary calendar first opening span before)
    (happens : before.Happens calendar occurrence after)
    (lone : Moment.Lone calendar 0 opening span ⟨before, occurrence, after⟩)
    (few : after.errands ≤ 13) : Solitary calendar first opening span after where
  lives := by
    obtain ⟨moments, lives, each⟩ := solitary.lives
    refine ⟨_, lives.step happens, ?_⟩
    intro moment member
    rcases List.mem_append.mp member with old | new
    · exact each moment old
    · rw [List.mem_singleton.mp new]
      exact lone
  few := few

theorem start (alone : first.users.length = 1) (expects : first.Expects opening span) :
    Solitary calendar first opening span first where
  lives := ⟨[], .start, by simp⟩
  few := by
    obtain ⟨user, single⟩ := List.length_eq_one_iff.mp alone
    have member : user ∈ first.users := by rw [single]; exact List.mem_singleton_self user
    obtain ⟨due, phase⟩ := expects.fresh.connecting user member
    have unlinked := (expects.seated.onHub user member).connection?_eq_none (by rw [phase]; rfl)
    rw [errands, single]
    simp [User.errands, Phase.errands, phase, User.backlog_eq_nil unlinked]

theorem exists_user (solitary : Solitary calendar first opening span population)
    (alone : first.users.length = 1) :
    ∃ user, population.users = [user] ∧ population.users[0]? = some user := by
  obtain ⟨moments, lives, _⟩ := solitary.lives
  obtain ⟨user, single⟩ := List.length_eq_one_iff.mp (lives.length_users.trans alone)
  exact ⟨user, single, by rw [single]; rfl⟩

/-- All that is known of the user at any moment. -/
theorem unheard (solitary : Solitary calendar first opening span population)
    (expects : first.Expects opening span) (found : population.users[0]? = some user) :
    ∃ sent timeouts, Unheard opening span sent timeouts population user := by
  obtain ⟨moments, lives, each⟩ := solitary.lives
  exact ⟨_, _, lives.unheard expects each found⟩

/-- The only messages that steps of a user and its pump bring to the hub are its own. -/
theorem quiet_of_isTask {index : Nat} (about : move.user? = some index)
    (isTask : move.isTask = true) (possible : before.step? calendar move = some after)
    {origin : ConnectionId} {message : Stamped}
    (published : .published origin message ∈
      Moment.hubEvents calendar ⟨before, .move move, after⟩) :
    before.connectionAt index = some origin := by
  obtain ⟨user, moved, turn⟩ := turn_of_step? about possible
  have there := turn.getElem? index
  rw [if_pos rfl] at there
  by_cases pumped : move = .pump index
  · subst pumped
    simp only [Moment.hubEvents, turn.found, Option.bind_some, Option.mem_toList,
      User.pumpEvent?, Option.bind_eq_bind, Option.bind_eq_some_iff, Option.some.injEq,
      Hub.Event.published.injEq] at published
    obtain ⟨own, connected, _, _, rfl, _⟩ := published
    exact (connectionAt_of_found turn.found).trans connected
  · rw [hubEvents_about about turn.found there pumped, User.hubEvents] at published
    split at published
    · simp at published
    · simp at published
    · split at published <;> simp at published
    · simp at published

theorem task (solitary : Solitary calendar first opening span before)
    (alone : first.users.length = 1) (expects : first.Expects opening span)
    (isTask : move.isTask = true) (possible : before.step? calendar move = some after) :
    Solitary calendar first opening span after ∧ after.errands < before.errands := by
  obtain ⟨index, about⟩ := Move.user?_of_isTask isTask
  obtain ⟨user, moved, turn⟩ := turn_of_step? about possible
  obtain ⟨moments, lives, each⟩ := solitary.lives
  obtain ⟨lone, single, found⟩ := solitary.exists_user alone
  have isFirst : index = 0 := by
    have inside := (List.getElem?_eq_some_iff.mp turn.found).1
    rw [single] at inside
    simpa using inside
  subst isFirst
  have lone : Moment.Lone calendar 0 opening span ⟨before, .move move, after⟩ :=
    { timely := by
        cases move with
        | cancel _ | proceed _ | pump _ => exact True.intro
        | _ => cases isTask
      quiet := fun own connected origin message published =>
        Option.some.inj ((quiet_of_isTask about isTask possible published).symm.trans connected) }
  have there := turn.getElem? 0
  rw [if_pos rfl] at there
  have onward := lives.step (.move possible)
  -- An answer would be a sample that is still to be recorded, and there is none.
  have heedless : moved.phase.isAnswered = false := by
    have nothing := (onward.unsampled expects.fresh expects.seated (fun moment member => by
      rcases List.mem_append.mp member with old | new
      · exact each moment old
      · rw [List.mem_singleton.mp new]
        exact lone) there).2
    rw [unsampled_of_found there] at nothing
    simpa using Nat.eq_zero_of_add_eq_zero_right nothing
  have less := turn.errands_lt isTask (lives.settings ▸ expects.clear.bound) heedless
  exact ⟨solitary.step (.move possible) lone (Nat.le_trans (Nat.le_of_lt less) solitary.few), less⟩

/-- Once the user and its pump have to wait, time can go on to the next timer or signal. -/
theorem advance {time : Nat} (solitary : Solitary calendar first opening span before)
    (alone : first.users.length = 1)
    (stuck : ∀ move : Move, move.isTask = true → before.step? calendar move = none)
    (ahead : before.now < time)
    (timer : ∀ user timer, before.users[0]? = some user → user.phase.timer = some timer →
      time ≤ timer)
    (opens : before.start.isOpen = false → time ≤ opening)
    (ends : before.cancelled = false → time ≤ opening + span) :
    Solitary calendar first opening span { before with now := time } := by
  obtain ⟨user, single, found⟩ := solitary.exists_user alone
  have possible : before.step? calendar (.advance time) = some { before with now := time } :=
    if_pos ahead
  refine solitary.step (.move possible) ?_ ?_
  · exact
      { timely :=
          { cancel := stuck _ rfl, proceed := stuck _ rfl, timer, start := opens, stop := ends }
        quiet := by simp [Moment.hubEvents, Move.user?] }
  · have empty := backlog_eq_nil (stuck (.pump 0) rfl) found
    simp [errands, single, User.errands, empty, Phase.errands_le]

/-- Each step of the user or its pump brings it nearer to where it has to wait. -/
theorem winds (calendar : Nat → String) (alone : first.users.length = 1)
    (expects : first.Expects opening span) (isOpen cancelled : Bool) :
    Winds calendar
      (fun population => Solitary calendar first opening span population ∧
        population.start.isOpen = isOpen ∧ population.cancelled = cancelled) errands where
  task := by
    rintro before after ⟨solitary, opened, stopped⟩ ⟨move, isTask, possible⟩
    obtain ⟨index, about⟩ := Move.user?_of_isTask isTask
    obtain ⟨_, _, turn⟩ := turn_of_step? about possible
    obtain ⟨later, less⟩ := solitary.task alone expects isTask possible
    exact ⟨⟨later, turn.signals.start ▸ opened, turn.signals.cancelled ▸ stopped⟩,
      turn.signals.now, less⟩
  few holds := Nat.lt_of_le_of_lt holds.1.few (by decide)

/-- Up to a moment that is no later than the signal that comes next, there is a schedule. -/
theorem exists_runUntil {isOpen cancelled : Bool} {moment : Nat}
    (solitary : Solitary calendar first opening span population)
    (alone : first.users.length = 1) (expects : first.Expects opening span)
    (opened : population.start.isOpen = isOpen) (stopped : population.cancelled = cancelled)
    (ahead : population.now ≤ moment) (opens : isOpen = false → moment ≤ opening)
    (ends : cancelled = false → moment ≤ opening + span) :
    ∃ later, population.runUntil calendar moment = some later ∧
      (Solitary calendar first opening span later ∧ later.start.isOpen = isOpen ∧
        later.cancelled = cancelled) ∧
      later.now = moment ∧
      ∀ move : Move, move.isTask = true → later.step? calendar move = none := by
  refine Population.exists_runUntil (winds calendar alone expects isOpen cancelled)
    (fun {population time} holds stuck later early timer => ?_) ⟨solitary, opened, stopped⟩ ahead
  obtain ⟨solitary, opened, stopped⟩ := holds
  obtain ⟨user, single, found⟩ := solitary.exists_user alone
  refine ⟨solitary.advance alone stuck later ?_ ?_ ?_, opened, stopped⟩
  · intro other isTimer there waits
    cases found.symm.trans there
    refine timer _ ?_
    rw [nextTimer?, single]
    simp [waits]
  · exact fun closed => Nat.le_trans early (opens (opened.symm.trans closed))
  · exact fun kept => Nat.le_trans early (ends (stopped.symm.trans kept))

/-! ## Signals -/

theorem openStart (solitary : Solitary calendar first opening span population)
    (now : population.now = opening)
    (connected : ∀ user due, population.users[0]? = some user → user.phase ≠ .connecting due) :
    Solitary calendar first opening span population.openStart :=
  solitary.step .opened ⟨⟨now, connected⟩, by simp [Moment.hubEvents]⟩ solitary.few

theorem cancelAll (solitary : Solitary calendar first opening span population)
    (now : population.now = opening + span) :
    Solitary calendar first opening span population.cancelAll :=
  solitary.step .cancelled ⟨now, by simp [Moment.hubEvents]⟩ solitary.few

theorem not_connecting (solitary : Solitary calendar first opening span population)
    (answered : ∀ user ∈ first.users, ∃ due ≤ opening, user.phase = .connecting (some due))
    (stuck : population.step? calendar (.proceed 0) = none) (now : population.now = opening)
    (found : population.users[0]? = some user) (due : Option Nat) :
    user.phase ≠ .connecting due := by
  intro connecting
  obtain ⟨moments, lives, each⟩ := solitary.lives
  obtain ⟨⟨was, there, phase⟩, _⟩ := lives.connecting each found connecting
  obtain ⟨time, early, isDue⟩ := answered was (List.mem_of_getElem? there)
  rw [phase] at isDue
  cases isDue
  have waits : user.phase.timer = some time := by
    rw [connecting]
    rfl
  have ahead := timer_ahead (proceedUser?_eq_none stuck found) waits
  omega

theorem isEnded (solitary : Solitary calendar first opening span population)
    (expects : first.Expects opening span) (cancelled : population.cancelled = true)
    (stuck : ∀ move : Move, move.isTask = true → population.step? calendar move = none)
    (found : population.users[0]? = some user) : user.phase.isEnded = true := by
  obtain ⟨moments, lives, _⟩ := solitary.lives
  have equipped := lives.equipped expects.fresh.equipped user (List.mem_of_getElem? found)
  exact isEnded_of_stuck found equipped cancelled (stuck (.cancel 0) rfl) (stuck (.proceed 0) rfl)

/-- What is counted once the user is cancelled, and what can be summarized at any time. -/
theorem counters (solitary : Solitary calendar first opening span population)
    (alone : first.users.length = 1) (expects : first.Expects opening span)
    (books : Books [] first) :
    (population.cancelled = true →
      population.counters.probes = span / first.settings.round + 1 ∧
      population.counters.timeouts =
        (span + first.settings.pacing) / first.settings.round) ∧
    population.recorder.gather.summary = none ∧
    population.completion.remaining = population.running := by
  obtain ⟨moments, lives, each⟩ := solitary.lives
  obtain ⟨user, _, found⟩ := solitary.exists_user alone
  have grown := lives.books books
  have tally : ∀ test, History.tally test (moments.filterMap Moment.event?) =
      History.tallyOf test 0 (moments.filterMap Moment.event?) := by
    intro test
    have known : ∀ entry ∈ moments.filterMap Moment.event?, entry.1 < 1 := fun entry member =>
      Nat.lt_of_lt_of_eq (lives.known entry member) (lives.length_users.trans alone)
    rw [tally_eq_sum test known, Finset.sum_range_one]
  refine ⟨fun cancelled => ?_, ?_, grown.running⟩
  · have counts := (lives.unheard expects each found).counts (lives.settings ▸ expects.clear)
      cancelled
    have probes := grown.counters .probe
    have timeouts := grown.counters .timeout
    rw [lives.settings] at counts
    rw [tally] at probes timeouts
    exact ⟨probes.trans counts.1, timeouts.trans counts.2⟩
  · have sampled : Sampled _ population 1 population.recorder.gather.summary :=
      grown.sampled nofun rfl
    have nothing := (lives.unsampled expects.fresh expects.seated each found).1
    refine sampled.absent.mpr (Nat.le_zero.mp ?_)
    rw [← nothing, ← tally, ← History.length_latencies]
    exact sampled.atMost

end Solitary

/-- A user that is connected when the gate opens and cancelled a span later has ended when the
script is over. -/
theorem Expects.follow (expects : first.Expects opening span) (calendar : Nat → String)
    (alone : first.users.length = 1)
    (answered : ∀ user ∈ first.users, ∃ due ≤ opening, user.phase = .connecting (some due)) :
    ∃ snapshots last,
      UserScript.follow calendar first [(opening, .open), (opening + span, .cancel)] =
        some (snapshots, last) ∧
      Solitary calendar first opening span last ∧ last.cancelled = true ∧
      last.now = opening + span ∧ ∃ user, last.users = [user] ∧ user.phase.isEnded = true := by
  have begins : Solitary calendar first opening span first := .start alone expects
  obtain ⟨due, waits, ⟨solitary, closed, kept⟩, now, stuck⟩ :=
    begins.exists_runUntil alone expects expects.closed expects.kept expects.early
      (fun _ => Nat.le_refl _) (fun _ => Nat.le_add_right _ _)
  have opened := solitary.openStart now fun user time found =>
    solitary.not_connecting answered (stuck (.proceed 0) rfl) now found time
  obtain ⟨settled, settles, ⟨solitary, isOpen, kept⟩, same, _⟩ :=
    settle_of_winds (Solitary.winds calendar alone expects true false) ⟨opened, rfl, kept⟩
  have started : settled.now = opening := same.trans now
  obtain ⟨late, waitsToo, ⟨solitary, isOpen, kept⟩, now, _⟩ :=
    solitary.exists_runUntil alone expects isOpen kept (by omega) nofun
      (fun _ => Nat.le_refl (opening + span))
  obtain ⟨last, ends, ⟨solitary, _, cancelled⟩, same, stuck⟩ :=
    settle_of_winds (Solitary.winds calendar alone expects true true)
      ⟨solitary.cancelAll now, isOpen, rfl⟩
  obtain ⟨user, single, found⟩ := solitary.exists_user alone
  have ran : UserScript.follow calendar first [(opening, .open), (opening + span, .cancel)] =
      some ([UserScript.snapshot settled .none, UserScript.snapshot last .none], last) := by
    simp only [UserScript.follow, UserScript.act, waits, settles, waitsToo, ends,
      Option.bind_eq_bind, Option.bind_some]
  exact ⟨_, last, ran, solitary, cancelled, same.trans now, user, single,
    solitary.isEnded expects cancelled stuck found⟩

end Population

end ChatHub
