import ChatHub.Net.TcpLink
import ChatHub.Proofs.Hub.Circle
import ChatHub.Proofs.Net.Forwarding
import Mathlib.Data.Prod.Lex
import Mathlib.Logic.Relation
import Mathlib.Order.WellFounded
/-!
Links to a hub over TCP, with all that is under way between the two: messages that a link has not
written, bytes in both directions, and connections that the hub has not accepted or not seen end.
Bytes arrive in order and in chunks of any size, and whatever can happen next may. Main statements:
`Cabled.settles`, by which all that is under way comes to rest, and `Cabled.exists_run`.
-/

set_option autoImplicit false

namespace ChatHub

open Session (Answer)

/-- A TCP connection from a link to the hub. -/
structure Cable where
  link : TcpLink := {}
  /-- What the link has not written yet. -/
  outbox : Fifo Inbound := {}
  toHub : List UInt8 := []
  toLink : List UInt8 := []
  /-- Whether the hub's listener has accepted it. -/
  isAccepted : Bool := false
  /-- Whether the link has not been dropped. -/
  isHeld : Bool := true

/-- A hub behind its TCP listener and a party with links to it: the cables by their sockets, and
the sockets by the keys of the links. -/
structure Cabled where
  service : Service := {}
  cables : Roster Nat Cable := {}
  keys : Roster Nat Nat := {}
  nextSocket : Nat := 0

namespace Cabled

def set (cabled : Cabled) (service : Service) (socket : Nat) (cable : Cable) : Cabled :=
  { cabled with service, cables := cabled.cables.put socket cable }

/-- The cable of the link under a key, with its socket. -/
def cable? (cabled : Cabled) (key : Nat) : Option (Nat × Cable) :=
  (cabled.keys.get? key).bind fun socket =>
    (cabled.cables.get? socket).map fun cable => (socket, cable)

/-! ## What goes on by itself -/

/-- One thing that happens while the party does nothing. The hub's clock may stand at any moment. -/
inductive Work (calendar : Calendar) : Cabled → Cabled → Prop where
  | accept {cabled : Cabled} {socket : Nat} {cable : Cable} (moment : Nat)
      (found : cabled.cables.get? socket = some cable) (waits : cable.isAccepted = false) :
      Work calendar cabled (cabled.set
        (cabled.service.take (calendar moment) socket (.accepted .tcp)).2 socket
        { cable with isAccepted := true })
  /-- The link writes the oldest message of its outbox. -/
  | write {cabled : Cabled} {socket : Nat} {cable : Cable} {message : Inbound}
      {rest : Fifo Inbound} (found : cabled.cables.get? socket = some cable)
      (first : cable.outbox.pop? = some (message, rest)) :
      Work calendar cabled (cabled.set cabled.service socket
        { cable with outbox := rest, toHub := cable.toHub ++ TcpLink.encode message })
  /-- The hub reads some of what the link has written. -/
  | reachHub {cabled : Cabled} {socket : Nat} {cable : Cable} (moment : Nat)
      {chunk rest : List UInt8} (found : cabled.cables.get? socket = some cable)
      (accepted : cable.isAccepted = true) (cut : cable.toHub = chunk ++ rest)
      (nonempty : chunk ≠ []) :
      Work calendar cabled (cabled.set
        (cabled.service.take (calendar moment) socket (.bytes chunk)).2 socket
        { cable with toHub := rest })
  /-- The hub forwards a message. -/
  | forward {cabled : Cabled} {socket : Nat} {cable : Cable} {id : ConnectionId} {parcel : Parcel}
      {service : Service} (found : cabled.cables.get? socket = some cable)
      (gives : cabled.service.forward socket = ([(id, parcel)], service)) :
      Work calendar cabled (cabled.set service socket
        { cable with toLink := cable.toLink ++ parcel.bytes })
  /-- The link reads some of what the hub has written. -/
  | reachLink {cabled : Cabled} {socket : Nat} {cable : Cable} {chunk rest : List UInt8}
      (found : cabled.cables.get? socket = some cable) (held : cable.isHeld = true)
      (cut : cable.toLink = chunk ++ rest) (nonempty : chunk ≠ []) :
      Work calendar cabled (cabled.set cabled.service socket
        { cable with toLink := rest, link := cable.link.receive chunk })
  /-- The link reads the end of what the hub has written. -/
  | hangUp {cabled : Cabled} {socket : Nat} {cable : Cable}
      (found : cabled.cables.get? socket = some cable) (accepted : cable.isAccepted = true)
      (gone : cabled.service.serves socket = false) (all : cable.toLink = [])
      (reads : cable.link.isReading = true) :
      Work calendar cabled (cabled.set cabled.service socket
        { cable with link := cable.link.finish })
  /-- The link finds out that it cannot write any more. -/
  | refuse {cabled : Cabled} {socket : Nat} {cable : Cable}
      (found : cabled.cables.get? socket = some cable) (accepted : cable.isAccepted = true)
      (gone : cabled.service.serves socket = false)
      (accepts : cable.link.line.accepts = true) :
      Work calendar cabled (cabled.set cabled.service socket
        { cable with link := { cable.link with line := cable.link.line.refuse } })
  /-- The hub sees that a link was dropped: in order, behind all that was written, or not. -/
  | leave {cabled : Cabled} {socket : Nat} {cable : Cable} (moment : Nat) {arrival : Arrival}
      (found : cabled.cables.get? socket = some cable) (accepted : cable.isAccepted = true)
      (dropped : cable.isHeld = false)
      (last : arrival = .ended ∧ cable.toHub = [] ∨ arrival = .broken) :
      Work calendar cabled
        { cabled with
          service := (cabled.service.take (calendar moment) socket arrival).2
          cables := cabled.cables.erase socket }

def Settled (calendar : Calendar) (cabled : Cabled) : Prop :=
  ∀ next, ¬Work calendar cabled next

/-! ## What the party does -/

/-- Drops the link under a key. What it has not written is lost. -/
def unplug (cabled : Cabled) (key : Nat) : Cabled :=
  match cabled.cable? key with
  | none => cabled
  | some (socket, cable) =>
    { cabled.set cabled.service socket { cable with outbox := {}, isHeld := false } with
      keys := cabled.keys.erase key }

/-- Connects a link under a key that no link has. -/
def dial (cabled : Cabled) (key : Nat) : Cabled :=
  { cabled.set cabled.service cabled.nextSocket {} with
    keys := cabled.keys.put key cabled.nextSocket
    nextSocket := cabled.nextSocket + 1 }

/-- Connects a link under a key, in place of the one that was there. -/
def connect (cabled : Cabled) (key : Nat) : Cabled :=
  (cabled.unplug key).dial key

def poll (cabled : Cabled) (key : Nat) : Option Received × Cabled :=
  match cabled.cable? key with
  | none => (some .closed, cabled)
  | some (socket, cable) =>
    let (outcome, mailbox) := cable.link.line.mailbox.poll cable.link.line.senderGone
    (outcome,
      cabled.set cabled.service socket
        { cable with link := { cable.link with line := { cable.link.line with mailbox } } })

/-- A receive with a bound. It goes on waiting, if there is time, while other things happen. -/
inductive Receives (calendar : Calendar) (key bound : Nat) : Cabled → Received → Cabled → Prop where
  | found {cabled next : Cabled} {outcome : Received}
      (polled : cabled.poll key = (some outcome, next)) :
      Receives calendar key bound cabled outcome next
  | timedOut {cabled : Cabled} (nothing : (cabled.poll key).1 = none) :
      Receives calendar key bound cabled .timedOut cabled
  | waits {cabled middle last : Cabled} {outcome : Received}
      (nothing : (cabled.poll key).1 = none) (time : 0 < bound)
      (work : Work calendar cabled middle)
      (later : Receives calendar key bound middle outcome last) :
      Receives calendar key bound cabled outcome last

/-- A step of the party, with its answer. -/
inductive Performs (calendar : Calendar) : Cabled → LinkStep → Answer → Cabled → Prop where
  | connect {cabled : Cabled} (key : Nat) :
      Performs calendar cabled (.connect key) .done (cabled.connect key)
  | send {cabled : Cabled} {key socket : Nat} {cable : Cable} (message : Inbound)
      (found : cabled.cable? key = some (socket, cable))
      (accepts : cable.link.line.accepts = true) :
      Performs calendar cabled (.send key message) .done
        (cabled.set cabled.service socket { cable with outbox := cable.outbox.push message })
  | refused {cabled : Cabled} {key socket : Nat} {cable : Cable} (message : Inbound)
      (found : cabled.cable? key = some (socket, cable))
      (refuses : cable.link.line.accepts = false) :
      Performs calendar cabled (.send key message) .linkClosed cabled
  | unsent {cabled : Cabled} {key : Nat} (message : Inbound)
      (absent : cabled.cable? key = none) :
      Performs calendar cabled (.send key message) .missing cabled
  | receive {cabled next : Cabled} {key bound : Nat} {outcome : Received}
      (held : (cabled.cable? key).isSome = true)
      (receives : Receives calendar key bound cabled outcome next) :
      Performs calendar cabled (.receive key bound) (.received outcome) next
  | unreceived {cabled : Cabled} {key : Nat} (bound : Nat) (absent : cabled.cable? key = none) :
      Performs calendar cabled (.receive key bound) .missing cabled
  | drop {cabled : Cabled} (key : Nat) :
      Performs calendar cabled (.drop key) (.holds (cabled.keys.contains key)) (cabled.unplug key)

/-- Steps in order, each of which is followed by all that is under way, with the answers and the
states in which all has settled. -/
inductive Run (calendar : Calendar) : Cabled → List LinkStep → List (Answer × Cabled) → Prop where
  | nil {cabled : Cabled} : Run calendar cabled [] []
  | cons {cabled acted settled : Cabled} {step : LinkStep} {answer : Answer}
      {rest : List LinkStep} {later : List (Answer × Cabled)}
      (act : Performs calendar cabled step answer acted)
      (work : Relation.ReflTransGen (Work calendar) acted settled)
      (still : Settled calendar settled) (run : Run calendar settled rest later) :
      Run calendar cabled (step :: rest) ((answer, settled) :: later)

def view (cabled : Cabled) : View where
  peers := cabled.service.hub.peerCount
  mailbox? key := (cabled.cable? key).map fun cable =>
    cable.2.link.line.mailbox.messages.map Stamped.inbound

end Cabled

/-! ## Everything comes to rest -/

namespace TcpLink

/-- A link that has stopped reading does not begin again, and reading leaves its writing alone. -/
structure Dwindles (earlier later : TcpLink) : Prop where
  reads : later.isReading = true → earlier.isReading = true
  accepts : later.line.accepts = earlier.line.accepts

private theorem dwindles_foldl (link : TcpLink) (pieces : List (List UInt8)) :
    Dwindles link (pieces.foldl takePiece link) := by
  induction pieces generalizing link with
  | nil => exact ⟨id, rfl⟩
  | cons piece rest ih =>
    have now : Dwindles link (link.takePiece piece) := by
      unfold takePiece
      split
      · rename_i reads
        refine ⟨fun _ => reads, ?_⟩
        split
        · rfl
        · simp only [Line.deliver]
          split <;> rfl
        · rfl
      · exact ⟨id, rfl⟩
    have later := ih (link.takePiece piece)
    exact ⟨fun reads => now.reads (later.reads reads), later.accepts.trans now.accepts⟩

private theorem dwindles_receive (link : TcpLink) (chunk : List UInt8) :
    Dwindles link (link.receive chunk) := by
  unfold receive
  split
  · have fed := dwindles_foldl { link with buffer := (link.buffer.feed chunk).1 }
      (link.buffer.feed chunk).2
    exact ⟨fed.reads, fed.accepts⟩
  · exact ⟨id, rfl⟩

private theorem accepts_finish (link : TcpLink) : link.finish.line.accepts = link.line.accepts := by
  unfold finish
  split
  · exact (dwindles_foldl link link.buffer.finish.toList).accepts
  · rfl

private theorem isReading_finish (link : TcpLink) : link.finish.isReading = false := by
  unfold finish
  split
  · rfl
  · rename_i stopped
    exact Bool.eq_false_iff.mpr stopped

end TcpLink

/-- What has still to happen to a cable itself: it is accepted, its link stops reading and writing,
it goes. -/
def Cable.steps (cable : Cable) : Nat :=
  1 + (!cable.isAccepted).toNat + cable.link.isReading.toNat + cable.link.line.accepts.toNat

private theorem Cable.steps_receive (cable : Cable) (chunk rest : List UInt8) :
    steps { cable with toLink := rest, link := cable.link.receive chunk } ≤ cable.steps := by
  have dwindles := cable.link.dwindles_receive chunk
  simp only [steps, dwindles.accepts]
  cases reads : (cable.link.receive chunk).isReading with
  | false => simp only [Bool.toNat_false]; omega
  | true => rw [dwindles.reads reads]

namespace Cabled

variable {calendar : Calendar} {cabled next : Cabled}

def waitingAt (service : Service) (socket : Nat) : Nat :=
  match service.speakerAt? socket with
  | none => 0
  | some (id, _) => (service.hub.queued id).length

/-- What is under way, with everything in front of what it turns into. -/
def load (cabled : Cabled) : ℕ ×ₗ ℕ ×ₗ ℕ ×ₗ ℕ ×ₗ ℕ :=
  toLex (cabled.cables.total fun _ cable => cable.steps,
    toLex (cabled.cables.total fun _ cable => cable.outbox.size,
      toLex (cabled.cables.total fun _ cable => cable.toHub.length,
        toLex (cabled.cables.total fun socket _ => waitingAt cabled.service socket,
          cabled.cables.total fun _ cable => cable.toLink.length))))

section Lex

variable {α β : Type} [PartialOrder α] [Preorder β] {first last : α} {earlier later : β}

theorem lex_lt (less : last ≤ first) (below : later < earlier) :
    toLex (last, later) < toLex (first, earlier) :=
  Prod.Lex.toLex_lt_toLex'.mpr ⟨less, fun _ => below⟩

theorem lex_lt_left (less : last < first) : toLex (last, later) < toLex (first, earlier) :=
  Prod.Lex.toLex_lt_toLex.mpr (.inl less)

end Lex

section Change

variable {socket : Nat} {cable changed : Cable} (found : cabled.cables.get? socket = some cable)

include found

theorem total_set_le {weigh : Nat → Cable → Nat}
    (less : weigh socket changed ≤ weigh socket cable) :
    (cabled.cables.put socket changed).total weigh ≤ cabled.cables.total weigh := by
  have sums := Roster.total_put_add found changed weigh
  omega

theorem total_set_lt {weigh : Nat → Cable → Nat}
    (less : weigh socket changed < weigh socket cable) :
    (cabled.cables.put socket changed).total weigh < cabled.cables.total weigh := by
  have sums := Roster.total_put_add found changed weigh
  omega

end Change

private theorem waitingAt_forward {service later : Service} {socket : Nat}
    {given : ConnectionId × Parcel} (gives : service.forward socket = ([given], later)) :
    waitingAt later socket < waitingAt service socket ∧
      ∀ other, waitingAt later other ≤ waitingAt service other := by
  obtain ⟨id, listener, message, hub, speaks, polled, rfl, _⟩ := Service.of_forward gives
  have front := Hub.queued_of_poll polled
  have same : ∀ other, ({ service with hub } : Service).speakerAt? other =
      service.speakerAt? other := fun _ => rfl
  constructor
  · rw [waitingAt, waitingAt, same, speaks]
    simp [front id]
  · intro other
    rw [waitingAt, waitingAt, same]
    cases service.speakerAt? other with
    | none => exact Nat.le_refl _
    | some speaker => simp [front speaker.1]

private theorem Work.load_lt (work : Work calendar cabled next) : next.load < cabled.load := by
  cases work with
  | @accept _ cable moment found waits =>
    apply lex_lt_left
    apply total_set_lt found
    simp [Cable.steps, waits]
  | write found first =>
    apply lex_lt
    · exact total_set_le found (Nat.le_refl _)
    · apply lex_lt_left
      apply total_set_lt found
      have front := congrArg List.length (Fifo.pop?_eq_some first)
      simp only [Fifo.length_toList, List.length_cons] at front
      exact Nat.lt_of_lt_of_eq (Nat.lt_succ_self _) front.symm
  | reachHub moment found accepted cut nonempty =>
    apply lex_lt
    · exact total_set_le found (Nat.le_refl _)
    apply lex_lt
    · exact total_set_le found (Nat.le_refl _)
    apply lex_lt_left
    apply total_set_lt found
    have more := List.length_pos_iff.mpr nonempty
    simp only [cut, List.length_append]
    omega
  | forward found gives =>
    obtain ⟨less, others⟩ := waitingAt_forward gives
    apply lex_lt
    · exact total_set_le found (Nat.le_refl _)
    apply lex_lt
    · exact total_set_le found (Nat.le_refl _)
    apply lex_lt
    · exact total_set_le found (Nat.le_refl _)
    apply lex_lt_left
    exact Nat.lt_of_le_of_lt (total_set_le found (Nat.le_refl _))
      (Roster.total_lt (fun other _ => others other) found less)
  | @reachLink _ _ chunk rest found held cut nonempty =>
    apply lex_lt
    · exact total_set_le found (Cable.steps_receive _ chunk rest)
    apply lex_lt
    · exact total_set_le found (Nat.le_refl _)
    apply lex_lt
    · exact total_set_le found (Nat.le_refl _)
    apply lex_lt
    · exact total_set_le found (Nat.le_refl _)
    apply total_set_lt found
    have more := List.length_pos_iff.mpr nonempty
    simp only [cut, List.length_append]
    omega
  | @hangUp _ cable found accepted gone all reads =>
    apply lex_lt_left
    apply total_set_lt found
    simp only [Cable.steps, cable.link.accepts_finish, cable.link.isReading_finish, reads,
      Bool.toNat_true, Bool.toNat_false]
    omega
  | @refuse _ cable found accepted gone accepts =>
    apply lex_lt_left
    apply total_set_lt found
    simp only [Cable.steps, Line.refuse, accepts, Bool.toNat_true, Bool.toNat_false]
    omega
  | @leave _ cable moment _ found accepted dropped last =>
    apply lex_lt_left
    have rest := Roster.total_erase_add found fun _ cable => cable.steps
    have least : 1 ≤ cable.steps := by
      rw [Cable.steps]
      omega
    show Roster.total (cabled.cables.erase _) _ < _
    omega

/-- However it goes on, all comes to rest in the end. -/
theorem settles (calendar : Calendar) :
    WellFounded fun next cabled => Work calendar cabled next :=
  Subrelation.wf (fun work => Work.load_lt work) (InvImage.wf load wellFounded_lt)

private theorem exists_settled (calendar : Calendar) (cabled : Cabled) :
    ∃ settled, Relation.ReflTransGen (Work calendar) cabled settled ∧ Settled calendar settled := by
  induction cabled using (settles calendar).induction with
  | _ cabled ih =>
    by_cases still : Settled calendar cabled
    · exact ⟨cabled, .refl, still⟩
    · obtain ⟨next, work⟩ := Classical.not_forall_not.mp still
      obtain ⟨settled, later, isLast⟩ := ih next work
      exact ⟨settled, .head work later, isLast⟩

private theorem exists_act (calendar : Calendar) (cabled : Cabled) (step : LinkStep) :
    ∃ answer next, Performs calendar cabled step answer next := by
  cases step with
  | connect key => exact ⟨_, _, .connect key⟩
  | drop key => exact ⟨_, _, .drop key⟩
  | send key message =>
    cases found : cabled.cable? key with
    | none => exact ⟨_, _, .unsent message found⟩
    | some cable =>
      cases accepts : cable.2.link.line.accepts with
      | true => exact ⟨_, _, .send message found accepts⟩
      | false => exact ⟨_, _, .refused message found accepts⟩
  | receive key bound =>
    cases found : cabled.cable? key with
    | none => exact ⟨_, _, .unreceived bound found⟩
    | some cable =>
      have held : (cabled.cable? key).isSome = true := by rw [found]; rfl
      rcases polled : cabled.poll key with ⟨_ | outcome, next⟩
      · exact ⟨_, _, .receive held (.timedOut (congrArg Prod.fst polled))⟩
      · exact ⟨_, _, .receive held (.found polled)⟩

theorem exists_run (calendar : Calendar) (cabled : Cabled) (steps : List LinkStep) :
    ∃ trace, Run calendar cabled steps trace := by
  induction steps generalizing cabled with
  | nil => exact ⟨[], .nil⟩
  | cons step rest ih =>
    obtain ⟨answer, acted, act⟩ := exists_act calendar cabled step
    obtain ⟨settled, work, still⟩ := exists_settled calendar acted
    obtain ⟨later, run⟩ := ih settled
    exact ⟨_, .cons act work still run⟩

end Cabled

end ChatHub
