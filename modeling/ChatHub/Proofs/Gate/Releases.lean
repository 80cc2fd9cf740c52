import ChatHub.Gate.Session
import Mathlib.Algebra.GroupWithZero.Nat
import Mathlib.Data.List.Infix
/-!
What a session of gates shows is said by its steps alone: how many workers are left, whether the
start gate is open, and when and how each waiter is released. Main statement:
`GateSession.releases_law`.
-/

set_option autoImplicit false

namespace ChatHub

/-! ## Rosters -/

namespace Roster

variable {κ α β : Type} [DecidableEq κ] {roster : Roster κ α}

private theorem Distinct.filterMap_entries (distinct : roster.Distinct) (name : κ)
    (pick : α → Option β) :
    (roster.entries.filterMap fun entry => if entry.1 = name then pick entry.2 else none) =
      ((roster.get? name).bind pick).toList := by
  obtain ⟨entries⟩ := roster
  simp only [Distinct, get?] at distinct ⊢
  induction entries with
  | nil => rfl
  | cons entry rest ih =>
    simp only [List.map_cons, List.nodup_cons] at distinct
    by_cases same : entry.1 = name
    · have others : rest.filterMap (fun entry => if entry.1 = name then pick entry.2 else none) =
          [] := by
        rw [List.filterMap_eq_nil_iff]
        intro other member
        rw [if_neg]
        intro again
        exact distinct.1 (same ▸ again ▸ List.mem_map_of_mem member)
      rw [List.filterMap_cons, if_pos same, others, List.find?_cons_of_pos (by simpa using same)]
      cases picked : pick entry.2 <;> simp [picked]
    · rw [List.filterMap_cons, if_neg same, List.find?_cons_of_neg (by simpa using same)]
      exact ih distinct.2

private theorem Distinct.get?_filter (distinct : roster.Distinct) (name : κ) (keep : α → Bool) :
    (⟨roster.entries.filter fun entry => keep entry.2⟩ : Roster κ α).get? name =
      (roster.get? name).filter keep := by
  obtain ⟨entries⟩ := roster
  simp only [Distinct, get?] at distinct ⊢
  induction entries with
  | nil => rfl
  | cons entry rest ih =>
    simp only [List.map_cons, List.nodup_cons] at distinct
    by_cases same : entry.1 = name
    · rw [List.find?_cons_of_pos (by simpa using same)]
      cases kept : keep entry.2 with
      | true => simp [kept, same, Option.filter]
      | false =>
        have absent : (rest.filter fun entry => keep entry.2).find? (fun entry => entry.1 = name) =
            none := by
          rw [List.find?_eq_none]
          intro other member again
          have present := List.mem_map_of_mem (f := Prod.fst) (List.mem_of_mem_filter member)
          rw [of_decide_eq_true again, ← same] at present
          exact distinct.1 present
        simp [kept, absent, Option.filter]
    · rw [List.find?_cons_of_neg (by simpa using same), ← ih distinct.2]
      cases kept : keep entry.2 with
      | true => simp [kept, same]
      | false => simp [kept]

omit [DecidableEq κ] in
theorem Distinct.filter (distinct : roster.Distinct) (keep : κ × α → Bool) :
    (⟨roster.entries.filter keep⟩ : Roster κ α).Distinct :=
  List.Nodup.sublist (List.filter_sublist.map Prod.fst) distinct

end Roster

namespace GateSession

/-! ## What the steps alone say -/

/-- How much time a step takes. -/
def Step.duration : Step → Nat
  | .advance duration => duration
  | _ => 0

/-- How much time steps take together. -/
def elapsed (steps : List Step) : Nat :=
  (steps.map Step.duration).sum

/-- Whether a guard is held behind a step, given whether it was before. -/
def Step.holds (name : Nat) (held : Bool) : Step → Bool
  | .guard other => held || decide (other = name)
  | .dropGuard other | .panicGuard other => held && decide (other ≠ name)
  | _ => held

/-- Whether a step ends a guard: it is dropped, its owner panics, or another takes its place. -/
def Step.endsGuard (held : Nat → Bool) : Step → Bool
  | .guard name | .dropGuard name | .panicGuard name => held name
  | _ => false

/-- How many guards end in the course of steps, given which are held at first. -/
def guardsEnded (held : Nat → Bool) : List Step → Nat
  | [] => 0
  | step :: rest =>
    (step.endsGuard held).toNat + guardsEnded (fun name => step.holds name (held name)) rest

/-- Whether a step makes a guard. -/
def Step.makesGuard : Step → Bool
  | .guard _ => true
  | _ => false

/-- How many workers are left behind steps that begin with new gates. -/
def workersLeft (count : Nat) (steps : List Step) : Nat :=
  count - (steps.count .countDown + guardsEnded (fun _ => false) steps)

/-- The name of the waiter that a step spawns. -/
def Step.waiter? : Step → Option Nat
  | .waitStart name | .waitCompletion name | .waitBounded name _ => some name
  | _ => none

/-- How the wait of a waiter ends that was spawned behind some steps, when others have followed:
one for the start as soon as the gate is open, one for the end as soon as nobody is left, and a
bounded one likewise if that is so at once or before its time is up, else once its time is up. -/
def verdict? (count : Nat) (before : List Step) (spawn : Step) (later : List Step) :
    Option Release :=
  match spawn with
  | .waitStart _ => if .open ∈ before ++ spawn :: later then some .opened else none
  | .waitCompletion _ =>
    if workersLeft count (before ++ spawn :: later) = 0 then some .zero else none
  | .waitBounded _ bound =>
    if workersLeft count (before ++ spawn :: later) = 0 ∧ (later = [] ∨ elapsed later < bound) then
      some (.within true)
    else if bound ≤ elapsed later then some (.within false)
    else none
  | _ => none

/-- How a waiter's wait ends in the course of the steps behind its spawning: the first verdict. -/
def firstVerdict? (count : Nat) (before : List Step) (spawn : Step) (later : List Step) :
    Option Release :=
  later.inits.findSome? (verdict? count before spawn)

private theorem firstVerdict?_nil (count : Nat) (before : List Step) (spawn : Step) :
    firstVerdict? count before spawn [] = verdict? count before spawn [] := by
  cases verdict : verdict? count before spawn [] <;> simp [firstVerdict?, verdict]

private theorem firstVerdict?_snoc (count : Nat) (before : List Step) (spawn : Step)
    (later : List Step) (step : Step) :
    firstVerdict? count before spawn (later ++ [step]) =
      (firstVerdict? count before spawn later).or
        (verdict? count before spawn (later ++ [step])) := by
  rw [firstVerdict?, List.inits_append, List.findSome?_append, firstVerdict?]
  cases verdict : verdict? count before spawn (later ++ [step]) <;> simp [verdict]

private theorem verdict?_of_firstVerdict? {count : Nat} {before later : List Step} {spawn : Step}
    (pending : firstVerdict? count before spawn later = none) :
    verdict? count before spawn later = none :=
  List.findSome?_eq_none_iff.mp pending later ((List.mem_inits _ _).mpr (List.prefix_refl later))

/-! ## Runs -/

/-- Both gates as they are made. -/
def initial (count : Nat) : GateSession :=
  { completion := ⟨count⟩ }

/-- The session behind the last of some steps. -/
def last (session : GateSession) (steps : List Step) : GateSession :=
  ((session.run steps).map Prod.snd).getLastD session

/-- How the waiter of a name is released with a step. -/
def Outcome.releasesTo (name : Nat) (outcome : Outcome) : List Release :=
  outcome.released.filterMap fun entry => if entry.1 = name then some entry.2 else none

/-- How the waiter of a name is released in the course of steps. -/
def releasesTo (name : Nat) (session : GateSession) (steps : List Step) : List Release :=
  (session.run steps).flatMap fun result => result.1.releasesTo name

@[simp] theorem last_nil (session : GateSession) : session.last [] = session :=
  rfl

@[simp] theorem last_cons (session : GateSession) (step : Step) (rest : List Step) :
    session.last (step :: rest) = (session.step step).2.last rest := by
  simp only [last, run, List.map_cons, List.getLastD_cons]

theorem last_append (session : GateSession) (earlier later : List Step) :
    session.last (earlier ++ later) = (session.last earlier).last later := by
  induction earlier generalizing session with
  | nil => rfl
  | cons step rest ih => rw [List.cons_append, last_cons, last_cons, ih]

private theorem last_snoc (session : GateSession) (steps : List Step) (step : Step) :
    session.last (steps ++ [step]) = ((session.last steps).step step).2 := by
  rw [last_append, last_cons, last_nil]

private theorem releasesTo_cons (name : Nat) (session : GateSession) (step : Step)
    (rest : List Step) :
    session.releasesTo name (step :: rest) =
      (session.step step).1.releasesTo name ++ (session.step step).2.releasesTo name rest :=
  rfl

private theorem releasesTo_snoc (name : Nat) (session : GateSession) (steps : List Step)
    (step : Step) :
    session.releasesTo name (steps ++ [step]) =
      session.releasesTo name steps ++ ((session.last steps).step step).1.releasesTo name := by
  induction steps generalizing session with
  | nil => exact List.append_nil _
  | cons first rest ih =>
    rw [List.cons_append, releasesTo_cons, releasesTo_cons, ih, last_cons, List.append_assoc]

/-! ## One step -/

variable {session : GateSession}

private theorem endGuard_start (session : GateSession) (name : Nat) :
    (session.endGuard name).start = session.start := by
  unfold endGuard
  split <;> rfl

private theorem endGuard_now (session : GateSession) (name : Nat) :
    (session.endGuard name).now = session.now := by
  unfold endGuard
  split <;> rfl

private theorem endGuard_waiters (session : GateSession) (name : Nat) :
    (session.endGuard name).waiters = session.waiters := by
  unfold endGuard
  split <;> rfl

private theorem endGuard_remaining (session : GateSession) (name : Nat) :
    (session.endGuard name).completion.remaining =
      session.completion.remaining - (decide (name ∈ session.guards)).toNat := by
  unfold endGuard
  by_cases held : name ∈ session.guards <;> simp [held]

private theorem endGuard_guards (session : GateSession) (name : Nat) :
    (session.endGuard name).guards = session.guards.erase name := by
  unfold endGuard
  by_cases held : name ∈ session.guards
  · rw [if_pos held]
  · rw [if_neg held, List.erase_of_not_mem held]

private theorem step_start (session : GateSession) (step : Step) :
    (session.step step).2.start.isOpen = (session.start.isOpen || decide (step = .open)) := by
  cases step with
  | «open» => simp [GateSession.step, act, settle, StartGate.open]
  | guard name | dropGuard name | panicGuard name =>
    simp [GateSession.step, act, settle, endGuard_start]
  | countDown | waitStart name | waitCompletion name | waitBounded name bound | abort name
  | advance duration => simp [GateSession.step, act, settle]

private theorem step_now (session : GateSession) (step : Step) :
    (session.step step).2.now = session.now + step.duration := by
  cases step with
  | guard name | dropGuard name | panicGuard name =>
    simp [GateSession.step, act, settle, endGuard_now, Step.duration]
  | «open» | countDown | waitStart name | waitCompletion name | waitBounded name bound | abort name
  | advance duration => simp [GateSession.step, act, settle, Step.duration]

private theorem step_remaining (session : GateSession) (step : Step) :
    (session.step step).2.completion.remaining =
      session.completion.remaining -
        ((decide (step = .countDown)).toNat +
          (step.endsGuard fun name => decide (name ∈ session.guards)).toNat) := by
  cases step with
  | guard name | dropGuard name | panicGuard name =>
    simp [GateSession.step, act, settle, endGuard_remaining, Step.endsGuard]
  | «open» | countDown | waitStart name | waitCompletion name | waitBounded name bound | abort name
  | advance duration => simp [GateSession.step, act, settle, Step.endsGuard]

/-- What there is of guards: each name at most once, those that the steps leave held, and as many as
were made and have not ended. -/
structure Keeps (guards : List Nat) (held : Nat → Bool) (made ended : Nat) : Prop where
  distinct : guards.Nodup
  mem : ∀ name, name ∈ guards ↔ held name = true
  count : ended + guards.length = made

theorem Keeps.erase {guards : List Nat} {held : Nat → Bool} {made ended : Nat}
    (keeps : Keeps guards held made ended) (name : Nat) :
    Keeps (guards.erase name) (fun other => held other && decide (name ≠ other)) made
      (ended + (held name).toNat) where
  distinct := keeps.distinct.erase name
  mem other := by
    rw [keeps.distinct.mem_erase_iff, keeps.mem, Bool.and_eq_true, decide_eq_true_iff, and_comm,
      ne_comm]
  count := by
    have count := keeps.count
    cases was : held name with
    | true =>
      have present := (keeps.mem name).mpr was
      have some := List.length_pos_of_mem present
      rw [List.length_erase_of_mem present, Bool.toNat_true]
      omega
    | false =>
      have absent : name ∉ guards := by rw [keeps.mem, was]; exact Bool.false_ne_true
      rw [List.erase_of_not_mem absent, Bool.toNat_false]
      exact count

theorem Keeps.step {held : Nat → Bool} {made ended : Nat}
    (keeps : Keeps session.guards held made ended) (step : Step) :
    Keeps (session.step step).2.guards (fun name => step.holds name (held name))
      (made + step.makesGuard.toNat) (ended + (step.endsGuard held).toNat) := by
  cases step with
  | guard name =>
    have free := keeps.erase name
    have guards : (session.step (.guard name)).2.guards = session.guards.erase name ++ [name] :=
      congrArg (· ++ [name]) (endGuard_guards session name)
    rw [guards]
    refine ⟨?_, ?_, ?_⟩
    · rw [List.nodup_append]
      refine ⟨free.distinct, by simp, ?_⟩
      rintro other member last isLast rfl
      rw [List.mem_singleton] at isLast
      rw [free.mem, isLast] at member
      simp at member
    · intro other
      rw [List.mem_append, free.mem, List.mem_singleton, Step.holds]
      by_cases same : name = other
      · simp [same]
      · simp [same, Ne.symm same]
    · have count := free.count
      rw [List.length_append, List.length_singleton, ← Nat.add_assoc]
      exact congrArg (· + 1) count
  | dropGuard name | panicGuard name =>
    have free := keeps.erase name
    rw [← endGuard_guards session name] at free
    exact free
  | «open» | countDown | waitStart name | waitCompletion name | waitBounded name bound | abort name
  | advance duration => exact keeps

/-! ## What is left, and the time -/

private theorem last_start (session : GateSession) (steps : List Step) :
    (session.last steps).start.isOpen = (session.start.isOpen || decide (.open ∈ steps)) := by
  induction steps generalizing session with
  | nil => simp
  | cons step rest ih =>
    rw [last_cons, ih, step_start, Bool.or_assoc]
    simp only [List.mem_cons, Bool.decide_or, eq_comm]

private theorem last_now (session : GateSession) (steps : List Step) :
    (session.last steps).now = session.now + elapsed steps := by
  induction steps generalizing session with
  | nil => rfl
  | cons step rest ih =>
    rw [last_cons, ih, step_now, Nat.add_assoc]
    rfl

theorem Keeps.last {held : Nat → Bool} {made ended : Nat}
    (keeps : Keeps session.guards held made ended) (steps : List Step) :
    (session.last steps).completion.remaining =
        session.completion.remaining - (steps.count .countDown + guardsEnded held steps) ∧
      ended + guardsEnded held steps + (session.last steps).guards.length =
        made + steps.countP Step.makesGuard := by
  induction steps generalizing session held made ended with
  | nil => exact ⟨rfl, keeps.count⟩
  | cons step rest ih =>
    obtain ⟨remaining, guards⟩ := ih (keeps.step step)
    have same : (fun name => decide (name ∈ session.guards)) = held := by
      funext name
      rw [Bool.eq_iff_iff, decide_eq_true_iff]
      exact keeps.mem name
    rw [step_remaining, same] at remaining
    rw [last_cons, List.count_cons, List.countP_cons, guardsEnded]
    constructor
    · rw [remaining]
      by_cases down : step = .countDown <;> simp [down] <;> omega
    · cases making : step.makesGuard <;> simp [making] at guards ⊢ <;> omega

private theorem keeps_initial (count : Nat) : Keeps (initial count).guards (fun _ => false) 0 0 :=
  ⟨List.nodup_nil, fun name => by simp [initial], rfl⟩

private theorem remaining_last (count : Nat) (steps : List Step) :
    ((initial count).last steps).completion.remaining = workersLeft count steps :=
  ((keeps_initial count).last steps).1

/-- Time and the number of workers left do not change with one and the same step. -/
theorem duration_eq_zero_or (session : GateSession) (step : Step) :
    step.duration = 0 ∨
      (session.step step).2.completion.remaining = session.completion.remaining := by
  cases step with
  | advance duration => exact .inr rfl
  | «open» | countDown | guard name | dropGuard name | panicGuard name | waitStart name
  | waitCompletion name | waitBounded name bound | abort name => exact .inl rfl

/-! ## Waiters -/

/-- What is left of the waiters once everyone has gone on who can. -/
structure Settled (session : GateSession) : Prop where
  distinct : session.waiters.Distinct
  waiting : ∀ entry ∈ session.waiters.entries, session.release? entry.2 = none

private theorem settled_settle (distinct : session.waiters.Distinct) :
    session.settle.2.Settled where
  distinct := distinct.filter _
  waiting _ member := Option.isNone_iff_eq_none.mp (List.mem_filter.mp member).2

private theorem distinct_act (distinct : session.waiters.Distinct) (step : Step) :
    (session.act step).2.waiters.Distinct := by
  cases step with
  | waitStart name | waitCompletion name | waitBounded name bound => exact distinct.put name _
  | abort name => exact distinct.erase name
  | guard name | dropGuard name | panicGuard name => exact endGuard_waiters session name ▸ distinct
  | «open» | countDown | advance duration => exact distinct

theorem Settled.step (settled : session.Settled) (step : Step) :
    (session.step step).2.Settled :=
  settled_settle (distinct_act settled.distinct step)

theorem Settled.last (settled : session.Settled) (steps : List Step) :
    (session.last steps).Settled := by
  induction steps generalizing session with
  | nil => exact settled
  | cons step rest ih =>
    rw [last_cons]
    exact ih (settled.step step)

private theorem settled_initial (count : Nat) : (initial count).Settled where
  distinct := Roster.distinct_empty
  waiting entry member := by cases member

private theorem act_waiters {step : Step} {name : Nat} (other : step.waiter? ≠ some name)
    (kept : step ≠ .abort name) :
    (session.act step).2.waiters.get? name = session.waiters.get? name := by
  cases step with
  | waitStart spawned | waitCompletion spawned | waitBounded spawned bound =>
    exact Roster.get?_put_of_ne _ _ fun same => other (congrArg some same.symm)
  | abort aborted =>
    exact Roster.get?_erase_of_ne _ fun same => kept (congrArg Step.abort same.symm)
  | guard guarded | dropGuard guarded | panicGuard guarded =>
    exact congrArg (Roster.get? · name) (endGuard_waiters session guarded)
  | «open» | countDown | advance duration => rfl

/-- With a step, the waiter of a name is released if its wait ends then, and kept otherwise. -/
theorem step_waiter (settled : session.Settled) (step : Step) (name : Nat) :
    let waits := (session.act step).2.waiters.get? name
    (session.step step).1.releasesTo name =
        (waits.bind (session.step step).2.release?).toList ∧
      (session.step step).2.waiters.get? name =
        waits.filter fun wait => ((session.step step).2.release? wait).isNone := by
  have distinct := distinct_act settled.distinct step
  constructor
  · have released := distinct.filterMap_entries name (session.act step).2.release?
    rw [Outcome.releasesTo]
    refine Eq.trans ?_ released
    simp only [GateSession.step, settle, List.filterMap_filterMap]
    refine List.filterMap_congr fun entry _ => ?_
    cases (session.act step).2.release? entry.2 <;> simp
  · exact distinct.get?_filter name fun wait => ((session.act step).2.release? wait).isNone

/-- What a step that spawns a waiter makes it wait for. -/
def Step.waitAt? (now : Nat) : Step → Option GateWait
  | .waitStart _ => some .start
  | .waitCompletion _ => some .completion
  | .waitBounded _ bound => some (.bounded (now + bound))
  | _ => none

private theorem act_spawn {spawn : Step} {name : Nat} (spawned : spawn.waiter? = some name) :
    (session.act spawn).2.waiters.get? name = spawn.waitAt? session.now := by
  cases spawn with
  | waitStart other | waitCompletion other | waitBounded other bound =>
    cases spawned
    exact Roster.get?_put_self session.waiters _ _
  | _ => cases spawned

section Verdicts

variable {count : Nat} {before later : List Step} {spawn : Step}

private theorem elapsed_append (earlier later : List Step) :
    elapsed (earlier ++ later) = elapsed earlier + elapsed later := by
  simp [elapsed]

private theorem duration_spawn {name : Nat} (spawned : spawn.waiter? = some name) :
    spawn.duration = 0 := by
  cases spawn <;> first | rfl | cases spawned

private theorem now_spawned (count : Nat) (before later : List Step) {name : Nat}
    (spawned : spawn.waiter? = some name) :
    ((initial count).last (before ++ spawn :: later)).now = elapsed before + elapsed later := by
  rw [last_now, elapsed_append]
  have instantly : elapsed (spawn :: later) = elapsed later := by
    rw [elapsed, List.map_cons, List.sum_cons, duration_spawn spawned, Nat.zero_add, elapsed]
  rw [instantly]
  exact Nat.zero_add _

/-- What holds a wait at this moment is what the steps say, for a bounded wait if nobody was left
only within its time. -/
theorem release?_eq_verdict? (count : Nat) (before : List Step) {name : Nat}
    (spawned : spawn.waiter? = some name)
    (inTime : ∀ bound, spawn = .waitBounded name bound →
      workersLeft count (before ++ spawn :: later) = 0 → later = [] ∨ elapsed later < bound) :
    (spawn.waitAt? (elapsed before)).bind
        ((initial count).last (before ++ spawn :: later)).release? =
      verdict? count before spawn later := by
  have remaining := remaining_last count (before ++ spawn :: later)
  have now := now_spawned count before later spawned
  have start := last_start (initial count) (before ++ spawn :: later)
  cases spawn with
  | waitStart other =>
    simp only [Step.waitAt?, Option.bind_some, release?, start, verdict?]
    simp [initial]
  | waitCompletion other =>
    simp only [Step.waitAt?, Option.bind_some, release?, CompletionGate.isComplete, remaining,
      verdict?, decide_eq_true_eq]
  | waitBounded other bound =>
    cases spawned
    simp only [Step.waitAt?, Option.bind_some, release?, CompletionGate.isComplete, remaining, now,
      verdict?, decide_eq_true_eq, Nat.add_le_add_iff_left]
    by_cases zero : workersLeft count (before ++ .waitBounded name bound :: later) = 0
    · rw [if_pos zero, if_pos ⟨zero, inTime bound rfl zero⟩]
    · have late : ¬(workersLeft count (before ++ .waitBounded name bound :: later) = 0 ∧
          (later = [] ∨ elapsed later < bound)) := fun both => zero both.1
      rw [if_neg zero, if_neg late]
  | _ => cases spawned

/-- A wait that goes on with some steps and ends with the next one ends in time, as no step both
takes time and ends a worker. -/
theorem inTime_snoc {name : Nat} {step : Step}
    (pending : verdict? count before spawn later = none) (bound : Nat)
    (bounded : spawn = .waitBounded name bound)
    (zero : workersLeft count (before ++ spawn :: (later ++ [step])) = 0) :
    elapsed (later ++ [step]) < bound := by
  subst bounded
  simp only [verdict?] at pending
  split at pending
  · cases pending
  · rename_i left
    split at pending
    · cases pending
    · rename_i early
      have some_left : workersLeft count (before ++ .waitBounded name bound :: later) ≠ 0 :=
        fun none => left ⟨none, .inr (by omega)⟩
      rw [elapsed_append]
      have whole : before ++ .waitBounded name bound :: (later ++ [step]) =
          (before ++ .waitBounded name bound :: later) ++ [step] := by simp
      rw [whole, ← remaining_last, last_append, last_cons, last_nil] at zero
      rw [← remaining_last] at some_left
      rcases duration_eq_zero_or
          ((initial count).last (before ++ .waitBounded name bound :: later)) step with
        instantly | same
      · have nothing : elapsed [step] = 0 := instantly
        omega
      · exact absurd (same ▸ zero) some_left

private theorem releasesTo_spawned (count : Nat) (before : List Step) {name : Nat}
    (spawned : spawn.waiter? = some name)
    (undisturbed : ∀ step ∈ later, step.waiter? ≠ some name ∧ step ≠ .abort name) :
    releasesTo name ((initial count).last before) (spawn :: later) =
        (firstVerdict? count before spawn later).toList ∧
      ((initial count).last (before ++ spawn :: later)).waiters.get? name =
        if (firstVerdict? count before spawn later).isNone then spawn.waitAt? (elapsed before)
        else none := by
  induction later using List.reverseRecOn with
  | nil =>
    have settled := (settled_initial count).last before
    obtain ⟨released, left⟩ := step_waiter settled spawn name
    have time : ((initial count).last before).now = elapsed before :=
      (last_now _ before).trans (Nat.zero_add _)
    have verdict := release?_eq_verdict? count before spawned fun _ _ _ => .inl (Eq.refl [])
    rw [act_spawn spawned, time] at released left
    rw [last_snoc] at verdict ⊢
    have first : releasesTo name ((initial count).last before) [spawn] = _ :=
      releasesTo_snoc name _ [] spawn
    rw [first, last_nil, released, left, firstVerdict?_nil, ← verdict]
    refine ⟨rfl, ?_⟩
    cases spawn.waitAt? (elapsed before) <;> simp [Option.filter]
  | append_singleton later step ih =>
    obtain ⟨past, waits⟩ := ih fun other member =>
      undisturbed other (List.mem_append_left _ member)
    obtain ⟨other, kept⟩ := undisturbed step (by simp)
    have settled := (settled_initial count).last (before ++ spawn :: later)
    obtain ⟨released, left⟩ := step_waiter settled step name
    rw [act_waiters other kept, waits] at released left
    have whole : before ++ spawn :: (later ++ [step]) = (before ++ spawn :: later) ++ [step] := by
      simp
    have all := releasesTo_snoc name ((initial count).last before) (spawn :: later) step
    rw [← last_append, past, released, List.cons_append] at all
    rw [all, whole, last_snoc, left, firstVerdict?_snoc]
    cases first : firstVerdict? count before spawn later with
    | some release => simp
    | none =>
      have inTime : ∀ bound, spawn = .waitBounded name bound →
          workersLeft count (before ++ spawn :: (later ++ [step])) = 0 →
          later ++ [step] = [] ∨ elapsed (later ++ [step]) < bound := by
        intro bound bounded zero
        exact .inr (inTime_snoc (verdict?_of_firstVerdict? first) bound bounded zero)
      have verdict := release?_eq_verdict? count before spawned inTime
      rw [whole, last_snoc] at verdict
      simp only [Option.isNone_none, if_true, Option.toList_none, List.nil_append, Option.none_or,
        ← verdict, true_and]
      cases spawn.waitAt? (elapsed before) <;> simp [Option.filter]

end Verdicts

/-- In every run the count of workers left is what was counted down and the guards that ended took
from it, where every guard that was made is held or has ended once. The start gate is open once it
was opened. A waiter that is neither replaced nor aborted is released once, with its first verdict
and no earlier than that, and waits until then. Nobody is left waiting who could go on. -/
theorem releases_law (count : Nat) (steps : List Step) :
    let session := (initial count).last steps
    let ended := guardsEnded (fun _ => false) steps
    session.completion.remaining = count - (steps.count .countDown + ended) ∧
      ended + session.guards.length = steps.countP Step.makesGuard ∧
      session.start.isOpen = decide (.open ∈ steps) ∧
      (∀ (before later : List Step) (spawn : Step) (name : Nat),
        steps = before ++ spawn :: later → spawn.waiter? = some name →
        (∀ step ∈ later, step.waiter? ≠ some name ∧ step ≠ .abort name) →
        releasesTo name ((initial count).last before) (spawn :: later) =
            (firstVerdict? count before spawn later).toList ∧
          session.waiters.contains name = (firstVerdict? count before spawn later).isNone) ∧
      ∀ entry ∈ session.waiters.entries, session.release? entry.2 = none := by
  intro session ended
  obtain ⟨remaining, guards⟩ := (keeps_initial count).last steps
  refine ⟨remaining, ?_, ?_, ?_, ((settled_initial count).last steps).waiting⟩
  · rw [Nat.zero_add, Nat.zero_add] at guards
    exact guards
  · exact (last_start (initial count) steps).trans (Bool.false_or _)
  · intro before later spawn name split spawned undisturbed
    obtain ⟨released, waits⟩ := releasesTo_spawned count before spawned
      undisturbed
    refine ⟨released, ?_⟩
    have isWait : (spawn.waitAt? (elapsed before)).isSome = true := by
      cases spawn <;> first | rfl | cases spawned
    rw [← split] at waits
    rw [Roster.contains, waits]
    cases firstVerdict? count before spawn later <;> simp [isWait]

/-- A bounded waiter outlives its guard's end and the opening, and is released with the count at
zero, before its time is up. -/
theorem releases_law_bounded :
    let before : List Step := [.guard 1]
    let later : List Step := [.advance 4, .dropGuard 1, .open, .countDown, .advance 10]
    let steps := before ++ .waitBounded 7 10 :: later
    ((initial 2).last steps).completion.remaining = 0 ∧
      ((initial 2).last steps).start.isOpen = true ∧
      (∀ step ∈ later, step.waiter? ≠ some 7 ∧ step ≠ .abort 7) ∧
      releasesTo 7 ((initial 2).last before) (.waitBounded 7 10 :: later) = [.within true] := by
  intro before later steps
  obtain ⟨remaining, -, start, waiter, -⟩ := releases_law 2 steps
  have undisturbed : ∀ step ∈ later, step.waiter? ≠ some 7 ∧ step ≠ .abort 7 := by decide
  refine ⟨remaining.trans (by decide), start.trans (by decide), undisturbed, ?_⟩
  exact (waiter before later (.waitBounded 7 10) 7 rfl rfl undisturbed).1.trans (by decide)

end GateSession

end ChatHub
