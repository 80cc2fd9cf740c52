import ChatHub.Gate.Wakeup
/-!
No order of the atomic steps loses a wake-up. A waiter registers before it looks at the count, so
whoever brings the count to zero afterwards finds it registered. Main statement:
`Wakeup.no_lost_wakeup`.
-/

set_option autoImplicit false

namespace ChatHub.Wakeup

private theorem Waiter.notify_ne_unnotified (waiter : Waiter) : waiter.notify ≠ .parked false := by
  cases waiter <;> simp [notify]

private theorem Waiter.notify_eq_returned {waiter : Waiter} (returned : waiter.notify = .returned) :
    waiter = .returned := by
  cases waiter with
  | returned => rfl
  | idle | registered _ | parked _ => cases returned

private theorem mem_set_of_mem {α : Type} {items : List α} {index : Nat} {old item : α} (new : α)
    (found : items[index]? = some old) (different : old ≠ item) (member : item ∈ items) :
    item ∈ items.set index new := by
  obtain ⟨place, there⟩ := List.mem_iff_getElem?.mp member
  have elsewhere : index ≠ place := by
    intro same
    rw [same, there] at found
    exact different (Option.some.inj found).symm
  exact List.mem_iff_getElem?.mpr ⟨place, by rw [List.getElem?_set_ne elsewhere, there]⟩

namespace State

variable {state next : State}

/-- What a step does to the gate, the calls that count down and the calls that wait. -/
inductive Effect (state : State) : State → Prop where
  | decrement (counter : Nat) (found : state.counters[counter]? = some .ready) :
      Effect state
        { state with
          gate := state.gate.countDown
          counters := state.counters.set counter
            (if state.gate.remaining = 1 then .notifying else .done) }
  | notifyAll (counter : Nat) (found : state.counters[counter]? = some .notifying) :
      Effect state
        { state with
          counters := state.counters.set counter .done
          waiters := state.waiters.map Waiter.notify }
  | register (waiter : Nat) (found : state.waiters[waiter]? = some .idle) :
      Effect state { state with waiters := state.waiters.set waiter (.registered false) }
  | pass (waiter : Nat) (notified : Bool)
      (found : state.waiters[waiter]? = some (.registered notified))
      (zero : state.gate.remaining = 0) :
      Effect state { state with waiters := state.waiters.set waiter .returned }
  | park (waiter : Nat) (notified : Bool)
      (found : state.waiters[waiter]? = some (.registered notified))
      (left : state.gate.remaining ≠ 0) :
      Effect state { state with waiters := state.waiters.set waiter (.parked notified) }
  | wake (waiter : Nat) (found : state.waiters[waiter]? = some (.parked true)) :
      Effect state { state with waiters := state.waiters.set waiter .idle }

private theorem effect_of_step? {move : Move} (possible : state.step? move = some next) :
    Effect state next := by
  cases move with
  | decrement counter =>
    simp only [step?] at possible
    split at possible
    · rename_i found
      cases possible
      exact .decrement counter found
    · cases possible
  | notifyAll counter =>
    simp only [step?] at possible
    split at possible
    · rename_i found
      cases possible
      exact .notifyAll counter found
    · cases possible
  | register waiter =>
    simp only [step?] at possible
    split at possible
    · rename_i found
      cases possible
      exact .register waiter found
    · cases possible
  | look waiter =>
    simp only [step?] at possible
    split at possible
    · rename_i notified found
      cases possible
      by_cases zero : state.gate.remaining = 0
      · simp only [CompletionGate.isComplete, zero, decide_true, if_true]
        exact .pass waiter notified found zero
      · simp only [CompletionGate.isComplete, zero, decide_false, Bool.false_eq_true, if_false]
        exact .park waiter notified found zero
    · cases possible
  | wake waiter =>
    simp only [step?] at possible
    split at possible
    · rename_i found
      cases possible
      exact .wake waiter found
    · cases possible

/-- What every step keeps. Once the count is zero, a waiter may sleep un-notified only as long as a
counter is about to notify. -/
structure Watched (state : State) : Prop where
  told : state.gate.remaining = 0 → Counter.notifying ∉ state.counters →
    Waiter.parked false ∉ state.waiters
  returned : Waiter.returned ∈ state.waiters → state.gate.remaining = 0

private theorem watched_initial (count counters waiters : Nat) :
    (initial count counters waiters).Watched where
  told _ _ asleep := by
    have awake := List.eq_of_mem_replicate asleep
    cases awake
  returned back := by
    have waiting := List.eq_of_mem_replicate back
    cases waiting

theorem Watched.set_waiter (watched : state.Watched) (index : Nat) {waiter : Waiter}
    (awake : state.gate.remaining = 0 → waiter ≠ .parked false)
    (returns : waiter = .returned → state.gate.remaining = 0) :
    ({ state with waiters := state.waiters.set index waiter } : State).Watched where
  told zero quiet asleep := by
    rcases List.mem_or_eq_of_mem_set asleep with before | this
    · exact watched.told zero quiet before
    · exact awake zero this.symm
  returned back := by
    rcases List.mem_or_eq_of_mem_set back with before | this
    · exact watched.returned before
    · exact returns this.symm

theorem Watched.step (watched : state.Watched) (effect : Effect state next) : next.Watched := by
  cases effect with
  | decrement counter found =>
    constructor
    · intro zero quiet
      -- The counter that ends at zero is about to notify, unless the count was zero before.
      have inside := (List.getElem?_eq_some_iff.mp found).1
      by_cases one : state.gate.remaining = 1
      · simp only [one, if_true] at quiet
        exact absurd (List.mem_set inside _) quiet
      · simp only [one, if_false] at quiet
        have already : state.gate.remaining = 0 := by
          rw [CompletionGate.remaining_countDown] at zero
          omega
        exact watched.told already fun waits =>
          quiet (mem_set_of_mem .done found (by simp) waits)
    · intro back
      rw [CompletionGate.remaining_countDown, watched.returned back]
  | notifyAll counter found =>
    constructor
    · intro _ _ asleep
      obtain ⟨waiter, _, same⟩ := List.mem_map.mp asleep
      exact waiter.notify_ne_unnotified same
    · intro back
      obtain ⟨waiter, member, same⟩ := List.mem_map.mp back
      exact watched.returned (Waiter.notify_eq_returned same ▸ member)
  | register waiter found => exact watched.set_waiter waiter (by simp) (by simp)
  | pass waiter notified found zero => exact watched.set_waiter waiter (by simp) fun _ => zero
  | park waiter notified found left =>
    exact watched.set_waiter waiter (fun zero => absurd zero left) (by simp)
  | wake waiter found => exact watched.set_waiter waiter (by simp) (by simp)

private theorem not_returned_set {index other : Nat} {waiter : Waiter}
    (waits : state.waiters[index]? ≠ some .returned) (different : waiter ≠ .returned) :
    (state.waiters.set other waiter)[index]? ≠ some .returned := by
  intro returns
  rw [List.getElem?_set] at returns
  split at returns
  · split at returns
    · exact different (Option.some.inj returns)
    · cases returns
  · exact waits returns

private theorem remaining_eq_zero_of_returns (effect : Effect state next) {index : Nat}
    (waits : state.waiters[index]? ≠ some .returned)
    (returns : next.waiters[index]? = some .returned) : state.gate.remaining = 0 := by
  cases effect with
  | decrement counter found => exact absurd returns waits
  | notifyAll counter found =>
    rw [List.getElem?_map, Option.map_eq_some_iff] at returns
    obtain ⟨waiter, there, same⟩ := returns
    exact absurd (Waiter.notify_eq_returned same ▸ there) waits
  | register waiter found => exact absurd returns (not_returned_set waits (by simp))
  | pass waiter notified found zero => exact zero
  | park waiter notified found left => exact absurd returns (not_returned_set waits (by simp))
  | wake waiter found => exact absurd returns (not_returned_set waits (by simp))

/-- Where no step is possible, nobody is about to notify, and a waiter that has not returned sleeps
un-notified. -/
theorem parked_of_stuck (stuck : ∀ move, state.step? move = none) :
    Counter.notifying ∉ state.counters ∧
      ∀ waiter ∈ state.waiters, waiter = .returned ∨ waiter = .parked false := by
  constructor
  · intro waits
    obtain ⟨index, found⟩ := List.mem_iff_getElem?.mp waits
    have idle := stuck (.notifyAll index)
    simp [step?, found] at idle
  · intro waiter member
    obtain ⟨index, found⟩ := List.mem_iff_getElem?.mp member
    cases waiter with
    | idle =>
      have idle := stuck (.register index)
      simp [step?, found] at idle
    | registered notified =>
      have idle := stuck (.look index)
      simp [step?, found] at idle
    | parked notified =>
      cases notified with
      | false => exact .inr rfl
      | true =>
        have idle := stuck (.wake index)
        simp [step?, found] at idle
    | returned => exact .inl rfl

end State

theorem Reaches.watched {first state : State} (reached : Reaches first state)
    (watched : first.Watched) : state.Watched := by
  induction reached with
  | refl => exact watched
  | step move _ possible ih => exact ih.step (State.effect_of_step? possible)

/-- Whatever the order of the steps, no waiter sleeps un-notified once the count is zero and nobody
is about to notify, and none returns before the count is zero. So when nothing more can happen and
the count is zero, every waiter has returned. -/
theorem no_lost_wakeup (count counters waiters : Nat) {state : State}
    (reached : Reaches (.initial count counters waiters) state) :
    (state.gate.remaining = 0 → Counter.notifying ∉ state.counters →
        Waiter.parked false ∉ state.waiters) ∧
      (Waiter.returned ∈ state.waiters → state.gate.remaining = 0) ∧
      (∀ (move : Move) (next : State) (index : Nat), state.step? move = some next →
        state.waiters[index]? ≠ some Waiter.returned →
        next.waiters[index]? = some Waiter.returned → state.gate.remaining = 0) ∧
      ((∀ move, state.step? move = none) → state.gate.remaining = 0 →
        ∀ waiter ∈ state.waiters, waiter = Waiter.returned) := by
  have watched := reached.watched (State.watched_initial count counters waiters)
  refine ⟨watched.told, watched.returned, ?_, ?_⟩
  · intro move next index possible waits returns
    exact State.remaining_eq_zero_of_returns (State.effect_of_step? possible) waits returns
  · intro stuck zero waiter member
    obtain ⟨quiet, asleep⟩ := State.parked_of_stuck stuck
    rcases asleep waiter member with returned | parked
    · exact returned
    · exact absurd (parked ▸ member) (watched.told zero quiet)

/-- One of two waiters falls asleep while one worker is left, and the last decrement wakes it. -/
theorem no_lost_wakeup_between :
    ∃ state, Reaches (.initial 2 2 2) state ∧ state.gate.remaining = 0 ∧
      Counter.notifying ∉ state.counters ∧ Waiter.parked true ∈ state.waiters ∧
      Waiter.parked false ∉ state.waiters := by
  have reached : Reaches (.initial 2 2 2)
      { gate := ⟨0⟩, counters := [.done, .done], waiters := [.parked true, .idle] } := by
    refine .step (.notifyAll 1) (.step (.decrement 1) (.step (.look 0) (.step (.register 0)
      (.step (.decrement 0) .refl rfl) rfl) rfl) rfl) rfl
  exact ⟨_, reached, rfl, by decide, by decide,
    (no_lost_wakeup 2 2 2 reached).1 rfl (by decide)⟩

end ChatHub.Wakeup
