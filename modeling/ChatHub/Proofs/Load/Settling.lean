import ChatHub.Proofs.Load.Punctual
/-!
The virtual clock comes to rest: whatever holds of a run and is lowered by every step of a task is
enough for all that is possible at one moment to be done within the limits of the schedule. Main
statements: `Population.exists_runUntil` and `LoadRun.exists_runUntil`.
-/

set_option autoImplicit false

namespace ChatHub

variable {calendar : Nat → String}

namespace Population

variable {Holds : Population → Prop} {measure : Population → Nat} {population : Population}

theorem AnyTask.now {after : Population} (step : population.AnyTask calendar after) :
    after.now = population.now := by
  obtain ⟨move, isTask, possible⟩ := step
  obtain ⟨index, about⟩ := Move.user?_of_isTask isTask
  obtain ⟨_, _, turn⟩ := turn_of_step? about possible
  exact turn.signals.now

/-- What the users and their pumps preserve and lower at one moment. -/
abbrev Winds (calendar : Nat → String) : (Population → Prop) → (Population → Nat) → Prop :=
  (turns calendar).Winds now turnLimit

theorem settle_of_winds (winds : Winds calendar Holds measure) (holds : Holds population) :
    ∃ settled, population.settle calendar = some settled ∧ Holds settled ∧
      settled.now = population.now ∧
      ∀ move : Move, move.isTask = true → settled.step? calendar move = none := by
  obtain ⟨settled, result, holds, now, still⟩ := winds.settle holds
  exact ⟨settled, result, holds, now, fun move => step?_eq_none_of_turn still⟩

private theorem lt_nextTimer? {time : Nat}
    (stuck : ∀ move : Move, move.isTask = true → population.step? calendar move = none)
    (timer : population.nextTimer? = some time) : population.now < time := by
  rw [nextTimer?, List.min?_eq_some_iff] at timer
  obtain ⟨user, member, isTimer⟩ := List.mem_filterMap.mp timer.1
  obtain ⟨index, found⟩ := List.mem_iff_getElem?.mp member
  exact timer_ahead (proceedUser?_eq_none (stuck (.proceed index) rfl) found) isTimer

/-- Up to a moment there is a schedule, if time does no harm when nobody can go on. -/
theorem exists_runUntil (winds : Winds calendar Holds measure) {moment : Nat}
    (time : ∀ {population : Population} {time : Nat}, Holds population →
      (∀ move : Move, move.isTask = true → population.step? calendar move = none) →
      population.now < time → time ≤ moment →
      (∀ timer, population.nextTimer? = some timer → time ≤ timer) →
      Holds { population with now := time })
    (holds : Holds population) (early : population.now ≤ moment) :
    ∃ last, population.runUntil calendar moment = some last ∧ Holds last ∧ last.now = moment ∧
      ∀ move : Move, move.isTask = true → last.step? calendar move = none := by
  rw [runUntil]
  refine winds.exists_done (fun fuel population settled settles there early still => ?_)
    holds early (by omega)
  have stuck : ∀ move : Move, move.isTask = true → settled.step? calendar move = none :=
    fun _ => step?_eq_none_of_turn still
  have settles : population.settle calendar = some settled := settles
  simp only [runUntilWithin, settles, Option.bind_eq_bind, Option.bind_some]
  cases next : settled.nextTimer?.filter (· ≤ moment) with
  | some timer =>
    obtain ⟨isTimer, due⟩ := Option.filter_eq_some_iff.mp next
    have due : timer ≤ moment := of_decide_eq_true due
    have ahead := lt_nextTimer? stuck isTimer
    refine .inr ⟨_, rfl, ?_⟩
    rw [moveTo_of_lt ahead]
    refine ⟨time there stuck ahead due fun other isOther => ?_, ahead, due⟩
    exact Nat.le_of_eq (Option.some.inj (isTimer.symm.trans isOther))
  | none =>
    have late : ∀ timer, settled.nextTimer? = some timer → moment ≤ timer := by
      intro timer isTimer
      rw [isTimer] at next
      exact Nat.le_of_lt (Nat.lt_of_not_le (by simpa using next))
    have moved : Holds (settled.moveTo moment) := by
      rcases Nat.lt_or_eq_of_le early with ahead | same
      · rw [moveTo_of_lt ahead]
        exact time there stuck ahead (Nat.le_refl _) late
      · rw [moveTo_of_le (Nat.le_of_eq same.symm)]
        exact there
    obtain ⟨last, result, holds, isNow, idle⟩ := settle_of_winds winds moved
    exact .inl ⟨last, result, holds, isNow.trans (Nat.max_eq_right early), idle⟩

end Population

namespace LoadRun

variable {Holds : LoadRun → Prop} {measure : LoadRun → Nat} {run : LoadRun}

theorem AnyTask.now {next : LoadRun} (step : run.AnyTask calendar next) :
    next.population.now = run.population.now := by
  obtain ⟨move, isTask, possible⟩ := step
  cases move with
  | coordinator =>
    obtain ⟨_, _, led, rfl⟩ := coordinate?_led possible
    exact led.now
  | other move =>
    obtain ⟨after, moved, rfl⟩ := Option.map_eq_some_iff.mp possible
    have users : run.population.AnyTask calendar after := ⟨move, isTask, moved⟩
    exact users.now

/-- What the coordinator, the users and their pumps preserve and lower at one moment. -/
abbrev Winds (calendar : Nat → String) : (LoadRun → Prop) → (LoadRun → Nat) → Prop :=
  (turns calendar).Winds (fun run => run.population.now) Population.turnLimit

/-- If time can move within a moment as long as there is no report, the schedule comes to one. -/
theorem exists_runUntil (winds : Winds calendar Holds measure) {moment : Nat}
    (time : ∀ {run : LoadRun}, Holds run → Idle calendar run → run.stage.report? = none →
      ∃ time, run.nextTimer? = some time ∧ run.population.now < time ∧ time ≤ moment ∧
        Holds (run.moveTo time))
    (holds : Holds run) (early : run.population.now ≤ moment) :
    ∃ last, run.runUntil calendar moment = some last ∧ Holds last ∧
      last.stage.report?.isSome = true := by
  rw [runUntil]
  refine winds.exists_done (fun fuel run settled settles there _ still => ?_)
    holds early (by omega)
  have settles : run.settle calendar = some settled := settles
  simp only [runUntilWithin, settles, Option.bind_eq_bind, Option.bind_some]
  cases reported : settled.stage.report? with
  | some report => exact .inl ⟨settled, rfl, there, by rw [reported]; rfl⟩
  | none =>
    obtain ⟨timer, isTimer, ahead, due, later⟩ := time there (idle_of_turn still) reported
    refine .inr ⟨settled.moveTo timer, ?_, later, ?_⟩
    · simp only [isTimer, Option.filter_some, due, decide_true, if_true, Option.isSome_none,
        Bool.false_eq_true, if_false]
    · rw [now_moveTo_of_lt ahead]
      exact ⟨ahead, due⟩

end LoadRun

end ChatHub
