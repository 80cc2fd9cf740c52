import ChatHub.Proofs.Hub.Lifecycle
/-!
What is still to come in a session, in the order in which it will happen. Main statements:
`ordered_last`, by which nothing is ever overdue, and `giveWay_eq`, by which giving way lets happen
what has come due and puts the rest on the agenda.
-/

set_option autoImplicit false

namespace ChatHub

namespace Agenda

variable {α : Type}

/-- Nothing is overdue, and what is due earlier comes first. -/
structure Ordered (agenda : Agenda α) : Prop where
  sorted : agenda.pending.Pairwise fun first second => first.1 ≤ second.1
  ahead : ∀ entry ∈ agenda.pending, agenda.now ≤ entry.1

theorem mem_insert {due : Nat} {event : α} {pending : List (Nat × α)} {entry : Nat × α} :
    entry ∈ insert due event pending ↔ entry = (due, event) ∨ entry ∈ pending := by
  induction pending with
  | nil => simp [insert]
  | cons other rest ih =>
    simp only [insert]
    split
    · rw [List.mem_cons, ih, List.mem_cons]
      exact or_left_comm
    · exact List.mem_cons

private theorem insert_sorted {pending : List (Nat × α)}
    (sorted : pending.Pairwise fun first second => first.1 ≤ second.1) (due : Nat) (event : α) :
    (insert due event pending).Pairwise fun first second => first.1 ≤ second.1 := by
  induction pending with
  | nil => exact List.pairwise_singleton _ _
  | cons other rest ih =>
    obtain ⟨first, later⟩ := List.pairwise_cons.mp sorted
    simp only [insert]
    split
    · rename_i early
      refine List.pairwise_cons.mpr ⟨fun entry member => ?_, ih later⟩
      rcases mem_insert.mp member with rfl | member
      · exact early
      · exact first entry member
    · rename_i late
      refine List.pairwise_cons.mpr ⟨fun entry member => ?_, sorted⟩
      rcases List.mem_cons.mp member with rfl | member
      · exact Nat.le_of_not_le late
      · exact Nat.le_trans (Nat.le_of_not_le late) (first entry member)

private theorem filter_insert_of_lt (moment due : Nat) (event : α) (pending : List (Nat × α)) :
    (insert due event pending).filter (fun entry => decide (moment < entry.1)) =
      if moment < due then insert due event (pending.filter fun entry => decide (moment < entry.1))
      else pending.filter fun entry => decide (moment < entry.1) := by
  induction pending with
  | nil => by_cases later : moment < due <;> simp [insert, later]
  | cons other rest ih =>
    by_cases early : other.1 ≤ due
    · by_cases ahead : moment < other.1
      · have later : moment < due := Nat.lt_of_lt_of_le ahead early
        simp [insert, early, ahead, ih, later]
      · simp [insert, early, ahead, ih]
    · have ahead : moment < due → moment < other.1 := fun later =>
        Nat.lt_trans later (Nat.lt_of_not_le early)
      by_cases later : moment < due
      · simp [insert, early, later, ahead later]
      · simp [insert, early, later]

/-- What is due now goes behind all else that is due now. -/
theorem filter_insert_of_eq {moment due : Nat} (event : α) {pending : List (Nat × α)}
    (sorted : pending.Pairwise fun first second => first.1 ≤ second.1) (late : moment ≤ due) :
    (insert due event pending).filter (fun entry => decide (entry.1 = moment)) =
      pending.filter (fun entry => decide (entry.1 = moment)) ++
        if due = moment then [(due, event)] else [] := by
  induction pending with
  | nil => by_cases now : due = moment <;> simp [insert, now]
  | cons other rest ih =>
    obtain ⟨first, later⟩ := List.pairwise_cons.mp sorted
    by_cases early : other.1 ≤ due
    · rw [insert, if_pos early, List.filter_cons, List.filter_cons, ih later]
      split
      · rw [List.cons_append]
      · rfl
    · have none : (other :: rest).filter (fun entry => decide (entry.1 = moment)) = [] := by
        refine List.filter_eq_nil_iff.mpr fun entry member => ?_
        have least : other.1 ≤ entry.1 := by
          rcases List.mem_cons.mp member with rfl | member
          · exact Nat.le_refl _
          · exact first entry member
        simp only [decide_eq_true_eq]
        omega
      rw [insert, if_neg early, List.filter_cons, none]
      by_cases now : due = moment <;> simp [now]

/-! ## Taking and scheduling -/

variable {agenda later : Agenda α}

theorem Ordered.next (ordered : agenda.Ordered) {moment : Nat} {event : α}
    (next : agenda.nextBefore? moment = some (event, later)) :
    ∃ due, agenda.pending = (due, event) :: later.pending ∧ due < moment ∧ later.now = due ∧
      later.Ordered := by
  unfold nextBefore? at next
  split at next
  · cases next
  · rename_i due first rest isFirst
    split at next
    · rename_i early
      cases next
      have sorted := ordered.sorted
      rw [isFirst] at sorted
      obtain ⟨least, sorted⟩ := List.pairwise_cons.mp sorted
      have now : max agenda.now due = due :=
        Nat.max_eq_right (ordered.ahead (due, event) (isFirst ▸ List.mem_cons_self))
      exact ⟨due, isFirst, early, now, sorted, fun entry member =>
        Nat.le_trans (Nat.le_of_eq now) (least entry member)⟩
    · cases next

theorem Ordered.idle (ordered : agenda.Ordered) {moment : Nat}
    (idle : agenda.nextBefore? moment = none) : ∀ entry ∈ agenda.pending, moment ≤ entry.1 := by
  unfold nextBefore? at idle
  split at idle
  · rename_i empty
    intro entry member
    rw [empty] at member
    cases member
  · rename_i due first rest isFirst
    split at idle
    · cases idle
    · rename_i late
      have sorted := ordered.sorted
      rw [isFirst] at sorted ⊢
      intro entry member
      rcases List.mem_cons.mp member with rfl | member
      · exact Nat.le_of_not_lt late
      · exact Nat.le_trans (Nat.le_of_not_lt late) ((List.pairwise_cons.mp sorted).1 entry member)

theorem Ordered.advanceTo (ordered : agenda.Ordered) {moment : Nat}
    (idle : agenda.nextBefore? moment = none) : (agenda.advanceTo moment).Ordered where
  sorted := ordered.sorted
  ahead entry member := Nat.max_le.mpr ⟨ordered.ahead entry member, ordered.idle idle entry member⟩

theorem Ordered.schedule (ordered : agenda.Ordered) (delay : Nat) (event : α) :
    (agenda.schedule delay event).Ordered where
  sorted := insert_sorted ordered.sorted _ event
  ahead entry member := by
    rcases mem_insert.mp member with rfl | member
    · exact Nat.le_add_right _ _
    · exact ordered.ahead entry member

/-- Schedules tasks in order, each with its delay. -/
def scheduleAll (agenda : Agenda α) (tasks : List (Nat × α)) : Agenda α :=
  tasks.foldl (fun agenda task => agenda.schedule task.1 task.2) agenda

@[simp] theorem scheduleAll_now (agenda : Agenda α) (tasks : List (Nat × α)) :
    (agenda.scheduleAll tasks).now = agenda.now := by
  induction tasks generalizing agenda with
  | nil => rfl
  | cons task rest ih => exact ih (agenda.schedule task.1 task.2)

theorem Ordered.scheduleAll (ordered : agenda.Ordered) (tasks : List (Nat × α)) :
    (agenda.scheduleAll tasks).Ordered := by
  induction tasks generalizing agenda with
  | nil => exact ordered
  | cons task rest ih => exact ih (ordered.schedule task.1 task.2)

theorem scheduleAll_perm (agenda : Agenda α) (tasks : List (Nat × α)) :
    (agenda.scheduleAll tasks).pending.Perm
      (agenda.pending ++ tasks.map fun task => (agenda.now + task.1, task.2)) := by
  induction tasks generalizing agenda with
  | nil => simp [scheduleAll]
  | cons task rest ih =>
    refine (ih (agenda.schedule task.1 task.2)).trans ?_
    refine ((insert_perm _ _ _).append_right _).trans ?_
    exact List.perm_middle.symm

/-! ## What is due at once -/

/-- What is due at once. -/
def arrived (agenda : Agenda α) : List (Nat × α) :=
  agenda.pending.filter fun entry => decide (entry.1 = agenda.now)

/-- What lies ahead. -/
def upcoming (agenda : Agenda α) : List (Nat × α) :=
  agenda.pending.filter fun entry => decide (agenda.now < entry.1)

private theorem upcoming_schedule (agenda : Agenda α) (delay : Nat) (event : α) :
    (agenda.schedule delay event).upcoming =
      if delay = 0 then agenda.upcoming
      else insert (agenda.now + delay) event agenda.upcoming := by
  refine (filter_insert_of_lt agenda.now (agenda.now + delay) event agenda.pending).trans ?_
  by_cases now : delay = 0
  · rw [if_pos now, if_neg (by omega)]
    rfl
  · rw [if_neg now, if_pos (by omega)]
    rfl

private theorem Ordered.arrived_schedule (ordered : agenda.Ordered) (delay : Nat) (event : α) :
    (agenda.schedule delay event).arrived =
      agenda.arrived ++ if delay = 0 then [(agenda.now, event)] else [] := by
  refine (filter_insert_of_eq event ordered.sorted (Nat.le_add_right _ _)).trans ?_
  by_cases now : delay = 0
  · rw [if_pos now, if_pos (by omega), now]
    rfl
  · rw [if_neg now, if_neg (by omega)]
    rfl

private theorem upcoming_scheduleAll (agenda : Agenda α) (tasks : List (Nat × α)) :
    (agenda.scheduleAll tasks).upcoming =
      (Agenda.scheduleAll { agenda with pending := agenda.upcoming }
        (tasks.filter fun task => decide (task.1 ≠ 0))).pending := by
  induction tasks generalizing agenda with
  | nil => rfl
  | cons task rest ih =>
    refine (ih (agenda.schedule task.1 task.2)).trans ?_
    rw [upcoming_schedule]
    by_cases now : task.1 = 0
    · rw [if_pos now, List.filter_cons_of_neg (by simpa using now)]
      rfl
    · rw [if_neg now, List.filter_cons_of_pos (by simpa using now)]
      rfl

private theorem Ordered.arrived_scheduleAll (ordered : agenda.Ordered) (tasks : List (Nat × α)) :
    (agenda.scheduleAll tasks).arrived =
      agenda.arrived ++
        (tasks.filter fun task => decide (task.1 = 0)).map fun task => (agenda.now, task.2) := by
  induction tasks generalizing agenda with
  | nil => exact (List.append_nil _).symm
  | cons task rest ih =>
    refine (ih (ordered.schedule task.1 task.2)).trans ?_
    rw [ordered.arrived_schedule]
    by_cases now : task.1 = 0
    · rw [if_pos now, List.filter_cons_of_pos (by simpa using now), List.append_assoc]
      rfl
    · rw [if_neg now, List.filter_cons_of_neg (by simpa using now), List.append_nil]
      rfl

/-- What is due at once comes before what lies ahead. -/
theorem Ordered.pending_eq (ordered : agenda.Ordered) :
    agenda.pending = agenda.arrived ++ agenda.upcoming := by
  obtain ⟨now, pending⟩ := agenda
  induction pending with
  | nil => rfl
  | cons entry rest ih =>
    obtain ⟨least, sorted⟩ := List.pairwise_cons.mp ordered.sorted
    have late : now ≤ entry.1 := ordered.ahead entry List.mem_cons_self
    have after := ih
      ⟨sorted, fun other member => ordered.ahead other (List.mem_cons_of_mem _ member)⟩
    unfold arrived upcoming at after ⊢
    by_cases isNow : entry.1 = now
    · rw [List.filter_cons_of_pos (by simpa using isNow), List.filter_cons_of_neg (by simp [isNow]),
        List.cons_append, ← after]
    -- Behind the first entry that lies ahead nothing can be due.
    · have later : ∀ other ∈ entry :: rest, now < other.1 := by
        intro other member
        rcases List.mem_cons.mp member with rfl | member
        · exact Nat.lt_of_le_of_ne late (Ne.symm isNow)
        · exact Nat.lt_of_lt_of_le (Nat.lt_of_le_of_ne late (Ne.symm isNow)) (least other member)
      have none : (entry :: rest).filter (fun other => decide (other.1 = now)) = [] :=
        List.filter_eq_nil_iff.mpr fun other member => by
          simpa using Nat.ne_of_gt (later other member)
      have all : (entry :: rest).filter (fun other => decide (now < other.1)) = entry :: rest :=
        List.filter_eq_self.mpr fun other member => by simpa using later other member
      exact (congrArg₂ (· ++ ·) none all).symm

end Agenda

namespace Session

variable {calendar : Calendar} {session : Session}

/-- All that is still to come, in the order in which it will happen: what is on the agenda, and
what is ready to be put there. -/
def coming (session : Session) : List (Nat × LaterEvent) :=
  (session.agenda.scheduleAll session.ready).pending

/-! ## Giving way -/

/-- What events do to a hub, all at one time. -/
def occur (timestamp : String) (hub : Hub) (events : List LaterEvent) : Hub :=
  events.foldl
    (fun hub event =>
      match event with
      | .publish origin message => (hub.publish origin message timestamp).2
      | .detach id => hub.detach id)
    hub

private theorem occur_append (timestamp : String) (hub : Hub) (earlier later : List LaterEvent) :
    occur timestamp hub (earlier ++ later) = occur timestamp (occur timestamp hub earlier) later :=
  List.foldl_append

theorem happen_agenda (session : Session) (event : LaterEvent) :
    (session.happen calendar event).agenda = session.agenda := by
  cases event <;> rfl

theorem happen_hub (session : Session) (event : LaterEvent) :
    (session.happen calendar event).hub =
      occur (calendar session.agenda.now) session.hub [event] := by
  cases event <;> rfl

theorem settle_eq (calendar : Calendar) (ordered : session.agenda.Ordered) :
    (session.settle calendar).hub =
        occur (calendar session.agenda.now) session.hub (session.agenda.arrived.map Prod.snd) ∧
      (session.settle calendar).agenda = ⟨session.agenda.now, session.agenda.upcoming⟩ := by
  unfold settle
  generalize isMoment : session.agenda.now + 1 = moment
  -- The induction is along the events that are due now.
  fun_induction runUntilEvents calendar moment session with
  | case1 session idle =>
    have late : ∀ entry ∈ session.agenda.pending, session.agenda.now < entry.1 := by
      rw [← isMoment] at idle
      exact ordered.idle idle
    have none : session.agenda.arrived = [] :=
      List.filter_eq_nil_iff.mpr fun entry member => by
        simpa using Nat.ne_of_gt (late entry member)
    have all : session.agenda.upcoming = session.agenda.pending :=
      List.filter_eq_self.mpr fun entry member => by simpa using late entry member
    rw [runUntil_of_none idle, none, all]
    exact ⟨rfl, rfl⟩
  | case2 session event agenda due _ ih =>
    obtain ⟨time, isFirst, early, now, rest⟩ := ordered.next due
    have least : session.agenda.now ≤ time :=
      ordered.ahead (time, event) (isFirst ▸ List.mem_cons_self)
    have same : agenda.now = session.agenda.now := by omega
    have arrived : session.agenda.arrived = (time, event) :: agenda.arrived := by
      rw [Agenda.arrived, isFirst, List.filter_cons_of_pos (by simpa using now.symm.trans same),
        ← same]
      rfl
    have upcoming : session.agenda.upcoming = agenda.upcoming := by
      rw [Agenda.upcoming, isFirst, List.filter_cons_of_neg (by simp; omega), ← same]
      rfl
    rw [happen_agenda, happen_hub] at ih
    obtain ⟨hub, onAgenda⟩ := ih rest (by rw [same, isMoment])
    rw [runUntil_of_some due, hub, onAgenda, arrived, upcoming, same]
    exact ⟨rfl, rfl⟩

private theorem startAll_eq (calendar : Calendar) (tasks : List (Nat × LaterEvent))
    (session : Session) :
    (tasks.foldl (start calendar) session).hub =
        occur (calendar session.agenda.now) session.hub
          ((tasks.filter fun task => decide (task.1 = 0)).map Prod.snd) ∧
      (tasks.foldl (start calendar) session).agenda =
        session.agenda.scheduleAll (tasks.filter fun task => decide (task.1 ≠ 0)) ∧
      (tasks.foldl (start calendar) session).ready = session.ready := by
  induction tasks generalizing session with
  | nil => exact ⟨rfl, rfl, rfl⟩
  | cons task rest ih =>
    obtain ⟨hub, agenda, ready⟩ := ih (session.start calendar task)
    rw [List.foldl_cons, hub, agenda, ready, start]
    by_cases now : task.1 = 0
    · have here : (task :: rest).filter (fun task => decide (task.1 = 0)) =
          task :: rest.filter (fun task => decide (task.1 = 0)) :=
        List.filter_cons_of_pos (by simpa using now)
      have there : (task :: rest).filter (fun task => decide (task.1 ≠ 0)) =
          rest.filter (fun task => decide (task.1 ≠ 0)) :=
        List.filter_cons_of_neg (by simpa using now)
      rw [if_pos now, here, there, happen_agenda, happen_hub]
      exact ⟨rfl, rfl, by cases task.2 <;> rfl⟩
    · have here : (task :: rest).filter (fun task => decide (task.1 = 0)) =
          rest.filter (fun task => decide (task.1 = 0)) :=
        List.filter_cons_of_neg (by simpa using now)
      have there : (task :: rest).filter (fun task => decide (task.1 ≠ 0)) =
          task :: rest.filter (fun task => decide (task.1 ≠ 0)) :=
        List.filter_cons_of_pos (by simpa using now)
      rw [if_neg now, here, there]
      exact ⟨rfl, rfl, rfl⟩

/-- Giving way lets happen what is due at once; all else goes on the agenda. -/
theorem giveWay_eq (calendar : Calendar) (ordered : session.agenda.Ordered) :
    let whole := session.agenda.scheduleAll session.ready
    (session.giveWay calendar).hub =
        occur (calendar session.agenda.now) session.hub (whole.arrived.map Prod.snd) ∧
      (session.giveWay calendar).agenda = ⟨session.agenda.now, whole.upcoming⟩ ∧
      (session.giveWay calendar).ready = [] := by
  intro whole
  obtain ⟨settledHub, settledAgenda⟩ := settle_eq calendar ordered
  have kept : (session.settle calendar).ready = session.ready := runUntil_ready _ session
  obtain ⟨hub, agenda, ready⟩ :=
    startAll_eq calendar session.ready { session.settle calendar with ready := [] }
  have arrived : whole.arrived.map Prod.snd =
      session.agenda.arrived.map Prod.snd ++
        (session.ready.filter fun task => decide (task.1 = 0)).map Prod.snd := by
    rw [ordered.arrived_scheduleAll, List.map_append, List.map_map]
    rfl
  have upcoming := session.agenda.upcoming_scheduleAll session.ready
  unfold giveWay
  simp only [kept]
  refine ⟨hub.trans ?_, agenda.trans ?_, ready⟩
  · dsimp only
    rw [settledHub, settledAgenda, ← occur_append, ← arrived]
  · dsimp only
    rw [settledAgenda]
    exact congrArg₂ Agenda.mk (Agenda.scheduleAll_now ..) upcoming.symm

/-! ## Order in every run -/

private theorem ordered_runUntil (ordered : session.agenda.Ordered) (moment : Nat) :
    (session.runUntil calendar moment).agenda.Ordered := by
  fun_induction runUntilEvents calendar moment session with
  | case1 session idle => rwa [runUntil_of_none idle]
  | case2 session event agenda due _ ih =>
    obtain ⟨_, _, _, _, later⟩ := ordered.next due
    rw [runUntil_of_some due]
    exact ih (by rwa [happen_agenda])

private theorem ordered_startAll (ordered : session.agenda.Ordered)
    (tasks : List (Nat × LaterEvent)) :
    (tasks.foldl (start calendar) session).agenda.Ordered := by
  rw [(startAll_eq calendar tasks session).2.1]
  exact ordered.scheduleAll _

theorem ordered_giveWay (calendar : Calendar) (ordered : session.agenda.Ordered) :
    (session.giveWay calendar).agenda.Ordered := by
  have settled : Agenda.Ordered { session.settle calendar with ready := [] }.agenda :=
    ordered_runUntil ordered _
  exact ordered_startAll settled _

private theorem ordered_await {poll : Session → Option Received × Session}
    (keeps : ∀ session : Session, (poll session).2.agenda = session.agenda)
    (ordered : session.agenda.Ordered) (deadline : Nat) :
    (session.await calendar poll deadline).2.agenda.Ordered := by
  fun_induction awaitEvents calendar poll (fun _ => none) deadline session with
  | case1 session outcome polled found =>
    have kept := keeps session
    rw [found] at kept
    rw [await_of_found found]
    exact ordered_runUntil (by rwa [kept]) _
  | case2 session polled found idle =>
    rw [await_of_none (congrArg Prod.fst found) idle]
    exact ordered.advanceTo idle
  | case3 session polled found event agenda due _ ih =>
    obtain ⟨_, _, _, _, later⟩ := ordered.next due
    rw [await_of_some (congrArg Prod.fst found) due]
    exact ih (by rwa [happen_agenda])

private theorem ordered_awaitFor {poll : Session → Option Received × Session}
    (keeps : ∀ session : Session, (poll session).2.agenda = session.agenda)
    (ordered : session.agenda.Ordered) (bound : Nat) :
    (session.awaitFor calendar poll bound).2.agenda.Ordered := by
  have kept := keeps session
  unfold awaitFor
  match found : poll session with
  | (some outcome, polled) =>
    rw [found] at kept
    rwa [kept]
  | (none, _) =>
    by_cases noTime : bound = 0
    · simpa only [noTime, if_true] using ordered
    · simp only [noTime, if_false]
      exact ordered_await keeps (ordered_giveWay calendar ordered) _

private theorem dropLink_agenda (session : Session) (key : Nat) :
    (session.dropLink key).agenda = session.agenda := by
  unfold dropLink
  split <;> rfl

private theorem pollLink_agenda (key : Nat) (session : Session) :
    (session.pollLink key).2.agenda = session.agenda := by
  unfold pollLink
  split <;> rfl

private theorem ordered_step (ordered : session.agenda.Ordered) (calendar : Calendar)
    (step : Step) :
    (session.step calendar step).2.agenda.Ordered := by
  cases step with
  | attach | publishAs | isAttached => exact ordered
  | publish id _ | dropPeer id =>
    simp only [Session.step]
    split <;> exact ordered
  | dropMailbox id | drain id =>
    simp only [Session.step]
    split <;> exact ordered
  | tryReceive id =>
    simp only [Session.step]
    split
    · split <;> exact ordered
    · exact ordered
  | receive id bound later =>
    rw [← (schedule_frame session later).2.1] at ordered
    simp only [Session.step]
    split
    · exact ordered_awaitFor (fun _ => rfl) ordered bound
    · exact ordered
  | link key =>
    refine ordered_giveWay calendar ?_
    rwa [putLink, dropLink_agenda]
  | deadLink key => rwa [Session.step, putLink, dropLink_agenda]
  | linkSend key message =>
    have gaveWay := ordered_giveWay calendar ordered
    simp only [Session.step]
    split
    · exact ordered
    · split <;> exact gaveWay
  | linkReceive key bound =>
    simp only [Session.step]
    split
    · exact ordered_awaitFor (pollLink_agenda key) ordered bound
    · exact ordered
  | linkDrop key =>
    refine ordered_giveWay calendar ?_
    rwa [dropLink_agenda]

/-- In every run nothing is overdue. -/
theorem ordered_last (calendar : Calendar) (steps : List Step) :
    (last calendar {} steps).agenda.Ordered := by
  suffices whole : ∀ {session : Session}, session.agenda.Ordered →
      (session.last calendar steps).agenda.Ordered from
    whole ⟨.nil, nofun⟩
  intro session ordered
  induction steps generalizing session with
  | nil => exact ordered
  | cons step rest ih =>
    rw [last_cons]
    exact ih (ordered_step ordered calendar step)

end Session

end ChatHub
