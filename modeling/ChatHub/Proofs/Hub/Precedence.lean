import ChatHub.Proofs.Hub.Interleaved
import Mathlib.Data.List.Sort
/-!
In which order publishes that interleave reach mailboxes. A publish that begins once another is over
comes behind it everywhere. While two are under way together, one mailbox may have them in one order
and another in the other, but those of one origin are in order everywhere. Main statements:
`not_sublist_of_over`, `filter_arrivals_eq` and `arrivals_eq_of_inOrder`.
-/

set_option autoImplicit false

namespace ChatHub.Interleaved

/-! ## Since a moment -/

/-- What has happened since a moment: new publishes were begun, and of those that had begun by then
only the ones that were under way went on. -/
structure Since (first last : State) : Prop where
  published : ∃ more, last.publications = first.publications ++ more
  underWay : ∀ {origin : ConnectionId} {flight : Flight},
    last.flights.get? origin = some flight → flight.number < first.publications.length →
      ¬first.IsFinished flight.number
  arrived : ∀ id : ConnectionId, ∃ more, last.arrivals id = first.arrivals id ++ more ∧
    ∀ number ∈ more, number < first.publications.length → ¬first.IsFinished number

namespace Since

variable {first last next : State}

theorem refl (state : State) : Since state state where
  published := ⟨[], (List.append_nil _).symm⟩
  underWay found _ finished := finished _ _ found rfl
  arrived _ := ⟨[], (List.append_nil _).symm, nofun⟩

theorem length_le (since : Since first last) :
    first.publications.length ≤ last.publications.length := by
  obtain ⟨more, published⟩ := since.published
  rw [published, List.length_append]
  exact Nat.le_add_right _ _

/-- A step that leaves the publishes alone. -/
theorem congr (since : Since first last) (publications : next.publications = last.publications)
    (flights : next.flights = last.flights) (arrivals : next.arrivals = last.arrivals) :
    Since first next where
  published := publications ▸ since.published
  underWay found := since.underWay (flights ▸ found)
  arrived id := arrivals ▸ since.arrived id

theorem snapshot (since : Since first last) (origin : ConnectionId) (message : Stamped) :
    Since first (last.afterSnapshot origin message) where
  published := by
    obtain ⟨more, published⟩ := since.published
    exact ⟨more ++ [⟨origin, message, last.hub.registry⟩], by
      rw [State.afterSnapshot, published, List.append_assoc]⟩
  underWay {other flight} found early := by
    by_cases same : other = origin
    · rw [same, State.afterSnapshot, Roster.get?_put_self] at found
      cases found
      exact absurd early (Nat.not_lt.mpr since.length_le)
    · rw [State.afterSnapshot, Roster.get?_put_of_ne _ _ same] at found
      exact since.underWay found early
  arrived := since.arrived

theorem deliver (since : Since first last) {origin : ConnectionId} {flight : Flight}
    (found : last.flights.get? origin = some flight) (target : ConnectionId × ConnectionId)
    (report : DeliveryReport) : Since first (last.afterDelivery origin flight target report) where
  published := since.published
  underWay {other another} found' early := by
    by_cases same : other = origin
    · rw [same, State.afterDelivery, Roster.get?_put_self] at found'
      cases found'
      have still := since.underWay found early
      exact still
    · rw [State.afterDelivery, Roster.get?_put_of_ne _ _ same] at found'
      exact since.underWay found' early
  arrived id := by
    obtain ⟨more, grown, others⟩ := since.arrived id
    simp only [State.afterDelivery]
    by_cases isNew : id = target.2 ∧ last.hub.isOpen target.2 = true
    · obtain ⟨rfl, accepted⟩ := isNew
      refine ⟨more ++ [flight.number], ?_, fun number member early => ?_⟩
      · rw [if_pos accepted, extend_self, grown, List.append_assoc]
      · rcases List.mem_append.mp member with old | new
        · exact others number old early
        · cases List.mem_singleton.mp new
          exact since.underWay found early
    · rw [extend_if_of_not isNew]
      exact ⟨more, grown, others⟩

theorem finish (since : Since first last) (origin : ConnectionId) (failures : Nat) :
    Since first { last with
      hub := { last.hub with failures }
      flights := last.flights.erase origin } where
  published := since.published
  underWay {other flight} found early := by
    by_cases same : other = origin
    · rw [same, Roster.get?_erase_self] at found
      cases found
    · rw [Roster.get?_erase_of_ne _ same] at found
      exact since.underWay found early
  arrived := since.arrived

theorem step (since : Since first last) {move : Move} (moved : last.step? move = some next) :
    Since first next := by
  cases move with
  | allocate =>
    cases moved
    exact since.congr rfl rfl rfl
  | detach id | dropMailbox id =>
    cases moved
    exact since.congr rfl rfl rfl
  | enroll id =>
    simp only [State.step?] at moved
    split at moved
    · cases moved
      exact since.congr rfl rfl rfl
    · cases moved
  | take id =>
    simp only [State.step?] at moved
    split at moved
    · cases moved
      exact since.congr rfl rfl rfl
    · cases moved
  | snapshot origin message timestamp =>
    simp only [State.step?] at moved
    split at moved
    · cases moved
    · cases moved
      exact since.snapshot origin _
  | deliver origin target =>
    simp only [State.step?] at moved
    split at moved
    · cases moved
    · rename_i flight found
      split at moved
      · cases moved
        exact since.deliver found target _
      · cases moved
  | finish origin =>
    simp only [State.step?] at moved
    split at moved
    · cases moved
    · split at moved
      · cases moved
        exact since.finish origin _
      · cases moved

end Since

theorem Reaches.since {first last : State} (reached : Reaches first last) : Since first last := by
  induction reached with
  | refl => exact .refl first
  | step _ _ moved ih => exact ih.step moved

/-! ## Publishes that do not overlap -/

/-- Nowhere does a publish that begins once another is over come in front of that one. -/
theorem not_sublist_of_over {middle last : State} (consistent : Consistent middle)
    (reached : Reaches middle last) {one other : Nat} (isOver : middle.IsFinished one)
    (before : one < middle.publications.length) (behind : middle.publications.length ≤ other)
    (id : ConnectionId) : ¬[other, one].Sublist (last.arrivals id) := by
  obtain ⟨more, grown, others⟩ := reached.since.arrived id
  intro inverted
  rw [grown, List.sublist_append_iff] at inverted
  obtain ⟨front, back, parts, inFront, inBack⟩ := inverted
  cases front with
  | nil =>
    obtain rfl : [other, one] = back := parts
    have late : one ∈ more := inBack.subset (by simp)
    exact others one late before isOver
  | cons first rest =>
    obtain rfl : other = first := (List.cons.inj parts).1
    obtain ⟨publication, recorded, _⟩ := consistent.arrived (inFront.subset List.mem_cons_self)
    have early := (List.getElem?_eq_some_iff.mp recorded).1
    exact absurd early (Nat.not_lt.mpr behind)

/-! ## Two mailboxes -/

/-- Whether the publication with that number has that origin and is not under way any more. -/
def State.isOverFrom (state : State) (origin : ConnectionId) (number : Nat) : Bool :=
  state.isFrom origin number &&
    (state.flights.get? origin).all fun flight => flight.number ≠ number

section Mailboxes

variable {state : State} {one other : ConnectionId}

private theorem Consistent.isFinished (consistent : Consistent state) {origin : ConnectionId}
    {number : Nat} (isOver : state.isOverFrom origin number = true) : state.IsFinished number := by
  obtain ⟨isFrom, done⟩ := Bool.and_eq_true_iff.mp isOver
  rintro its flight found rfl
  cases (consistent.underWay found).origin_eq isFrom
  rw [found] at done
  simp at done

/-- What has arrived in a mailbox of the publishes that are over. -/
theorem Consistent.mem_arrivals_iff (consistent : Consistent state) {id : ConnectionId}
    (kept : state.hub.isAbandoned id = false) {number : Nat} (isOver : state.IsFinished number) :
    number ∈ state.arrivals id ↔ ∃ publication, state.publications[number]? = some publication ∧
      publication.origin ≠ id ∧ publication.registry.contains id = true := by
  refine ⟨consistent.arrived, fun ⟨publication, recorded, foreign, registered⟩ => ?_⟩
  rcases consistent.delivered recorded registered foreign.symm kept with
    arrived | ⟨flight, found, isNumber, _⟩
  · exact arrived
  · exact absurd isNumber (isOver _ _ found)

/-- Two connections that say nothing, that own their mailboxes, and that every publish finds
attached both or neither. -/
structure Alike (state : State) (one other : ConnectionId) : Prop where
  keepsOne : state.hub.isAbandoned one = false
  keepsOther : state.hub.isAbandoned other = false
  together : ∀ publication ∈ state.publications,
    publication.registry.contains one = publication.registry.contains other
  silent : ∀ publication ∈ state.publications,
    publication.origin ≠ one ∧ publication.origin ≠ other

theorem Alike.mem_arrivals_iff (alike : Alike state one other) (consistent : Consistent state)
    {number : Nat} (isOver : state.IsFinished number) :
    number ∈ state.arrivals one ↔ number ∈ state.arrivals other := by
  rw [consistent.mem_arrivals_iff alike.keepsOne isOver,
    consistent.mem_arrivals_iff alike.keepsOther isOver]
  refine exists_congr fun publication => and_congr_right fun recorded => ?_
  have member : publication ∈ state.publications := List.mem_of_getElem? recorded
  rw [alike.together publication member]
  have silent := alike.silent publication member
  exact and_congr_left fun _ => ⟨fun _ => silent.2, fun _ => silent.1⟩

/-- Of each origin, the same publishes have arrived in both, in the same order, as far as they are
over. -/
theorem Alike.filter_arrivals_eq (alike : Alike state one other) (consistent : Consistent state)
    (origin : ConnectionId) :
    (state.arrivals one).filter (state.isOverFrom origin) =
      (state.arrivals other).filter (state.isOverFrom origin) := by
  have sorted (id : ConnectionId) :
      ((state.arrivals id).filter (state.isOverFrom origin)).Pairwise (· < ·) := by
    rw [List.pairwise_filter]
    refine (consistent.ordered id).imp fun inOrder earlier later => ?_
    exact inOrder origin (Bool.and_eq_true_iff.mp earlier).1 (Bool.and_eq_true_iff.mp later).1
  apply (sorted one).eq_of_mem_iff (sorted other)
  intro number
  rw [List.mem_filter, List.mem_filter]
  exact and_congr_left fun isOver =>
    alike.mem_arrivals_iff consistent (consistent.isFinished isOver)

private theorem Consistent.lt_of_mem_arrivals (consistent : Consistent state) {id : ConnectionId}
    {number : Nat} (member : number ∈ state.arrivals id) : number < state.publications.length := by
  obtain ⟨publication, recorded, _⟩ := consistent.arrived member
  exact (List.getElem?_eq_some_iff.mp recorded).1

private theorem Consistent.arrivals_pairwise_lt (consistent : Consistent state) {id : ConnectionId}
    (inOrder : ∀ earlier later, earlier < later → later < state.publications.length →
      ¬[later, earlier].Sublist (state.arrivals id)) :
    (state.arrivals id).Pairwise (· < ·) := by
  rw [List.pairwise_iff_forall_sublist]
  intro earlier later inside
  have different : earlier ≠ later := by
    rintro rfl
    exact (List.nodup_iff_sublist.mp (consistent.arrivals_nodup id)) earlier inside
  rcases Nat.lt_or_gt_of_ne different with before | behind
  · exact before
  · have member : earlier ∈ state.arrivals id := inside.subset List.mem_cons_self
    exact absurd inside (inOrder later earlier behind (consistent.lt_of_mem_arrivals member))

/-- If no publish is under way and all have arrived in the order in which they were begun, then the
same has arrived in both. -/
theorem Alike.arrivals_eq_of_inOrder (alike : Alike state one other)
    (consistent : Consistent state) (isOver : ∀ origin, state.flights.get? origin = none)
    (inOrder : ∀ id earlier later, earlier < later → later < state.publications.length →
      ¬[later, earlier].Sublist (state.arrivals id)) :
    state.arrivals one = state.arrivals other := by
  have sorted (id : ConnectionId) : (state.arrivals id).Pairwise (· < ·) :=
    consistent.arrivals_pairwise_lt (inOrder id)
  apply (sorted one).eq_of_mem_iff (sorted other)
  intro number
  apply alike.mem_arrivals_iff consistent
  intro origin flight found
  cases (isOver origin).symm.trans found

end Mailboxes

end ChatHub.Interleaved
