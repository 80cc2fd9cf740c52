import ChatHub.Proofs.Hub.Members
import ChatHub.Proofs.Net.Speech
/-!
What holds of a service at any moment of a run: whoever is behind a socket is attached and owns its
mailbox, and nobody is behind two sockets. Main statement: `Service.steady_play`.
-/

set_option autoImplicit false

namespace ChatHub

namespace Hub

variable {id : ConnectionId}

private theorem heard_publishing (attached : Bool) (origin : ConnectionId) (timestamp : String)
    (messages : List Inbound) (leaves : Bool) :
    heard id attached (publishing origin timestamp messages leaves) =
      if attached = true ∧ origin ≠ id then messages.map (·.stamp timestamp) else [] := by
  induction messages with
  | nil => cases leaves <;> simp [publishing, heard, closing, Event.heardBy]
  | cons message rest ih =>
    have parts : publishing origin timestamp (message :: rest) leaves =
        .published origin (message.stamp timestamp) ::
          publishing origin timestamp rest leaves := rfl
    have first : (Event.published origin (message.stamp timestamp)).attaches id attached =
        attached := rfl
    rw [parts, heard, first, ih]
    simp only [Event.heardBy]
    split <;> rfl

private theorem taken_publishing (origin : ConnectionId) (timestamp : String)
    (messages : List Inbound)
    (leaves : Bool) : taken id (publishing origin timestamp messages leaves) = [] := by
  apply List.flatMap_eq_nil_iff.mpr
  intro event member
  rcases List.mem_append.mp member with said | closed
  · obtain ⟨message, _, rfl⟩ := List.mem_map.mp said
    rfl
  · cases leaves with
    | true =>
      rcases List.mem_cons.mp closed with rfl | last
      · rfl
      · rw [List.mem_singleton.mp last]
        rfl
    | false => cases closed

end Hub

open Hub (heard_publishing taken_publishing isAbandoned_eq_false_of_isOpen)

namespace Service

variable {service : Service} {socket : Nat} {id : ConnectionId} {listener : Listener}

theorem connectionAt?_of_speakerAt? (speaks : service.speakerAt? socket = some (id, listener)) :
    service.connectionAt? socket = some id := by
  rw [connectionAt?_eq, speaks]
  rfl

/-- What every moment of a run finds. -/
structure Steady (service : Service) : Prop where
  sound : service.Sound
  isOpen : ∀ {socket served}, service.sockets.get? socket = some served → served.isOpen = true
  unique : ∀ {first second id one other}, service.speakerAt? first = some (id, one) →
    service.speakerAt? second = some (id, other) → first = second
  member : ∀ {socket id listener}, service.speakerAt? socket = some (id, listener) →
    service.hub.IsMember id

theorem steady_empty : ({} : Service).Steady where
  sound := sound_empty
  isOpen found := by cases found
  unique found := by cases found
  member found := by cases found

theorem Steady.bounded (steady : service.Steady)
    (speaks : service.speakerAt? socket = some (id, listener)) :
    id < service.hub.nextId :=
  steady.sound.bounded (connectionAt?_of_speakerAt? speaks)

private theorem Steady.isOpen_take (steady : service.Steady) (timestamp : String)
    (arrival : Arrival) {other : Nat} {served : Served}
    (found : (service.take timestamp socket arrival).2.sockets.get? other = some served) :
    served.isOpen = true := by
  have settled : ∀ {served? : Option Served} {hub : Hub},
      (service.settle socket served? hub).sockets.get? other = some served →
        served.isOpen = true := by
    intro served? hub kept
    rw [get?_settle] at kept
    split at kept
    · exact (Option.filter_eq_some_iff.mp kept).2
    · exact steady.isOpen kept
  unfold take at found
  split at found
  · exact settled found
  · exact settled found
  · exact settled found
  · exact settled found
  all_goals exact steady.isOpen found

theorem Steady.take_effect (steady : service.Steady) (timestamp : String) (socket : Nat)
    (arrival : Arrival) :
    service.Effect timestamp socket (service.takeEvents timestamp socket arrival)
      (service.utterances socket arrival) (service.take timestamp socket arrival).2 :=
  Service.take_effect timestamp (fun _ => steady.isOpen) arrival

variable {timestamp : String} {events : List Hub.Event} {said : List Utterance} {next : Service}

theorem speakerAt?_of_ne (taken : service.Taken socket events next) {other : Nat}
    (different : other ≠ socket) : next.speakerAt? other = service.speakerAt? other := by
  rw [speakerAt?, taken.others other different, speakerAt?]

/-- Whoever is behind a socket only since an arrival came by it. -/
theorem Effect.joins_of_new (effect : service.Effect timestamp socket events said next)
    (speaks : next.speakerAt? socket = some (id, listener))
    (isNew : service.speakerAt? socket ≠ some (id, listener)) :
    service.speakerAt? socket = none ∧ id = service.hub.nextId := by
  cases effect with
  | quiet _ same => exact absurd (same.symm.trans speaks) isNew
  | speaks known _ left =>
    rw [left] at speaks
    split at speaks
    · cases speaks
    · exact absurd (known.trans speaks) isNew
  | joins unknown _ left =>
    rw [left] at speaks
    split at speaks
    · cases speaks
    · cases speaks
      exact ⟨unknown, rfl⟩

theorem Effect.speaker (effect : service.Effect timestamp socket events said next)
    (speaks : next.speakerAt? socket = some (id, listener)) :
    service.speakerAt? socket = some (id, listener) ∨ id = service.hub.nextId := by
  by_cases known : service.speakerAt? socket = some (id, listener)
  · exact .inl known
  · exact .inr (effect.joins_of_new speaks known).2

/-- An arrival at one socket is about nobody behind another. -/
theorem Steady.subject_ne (steady : service.Steady) (taken : service.Taken socket events next)
    {other : Nat} (different : other ≠ socket)
    (speaks : service.speakerAt? other = some (id, listener)) :
    ∀ event ∈ events, event.subject ≠ id := by
  rintro event member rfl
  rcases taken.subject event member with known | ⟨new, _⟩
  · rw [connectionAt?_eq] at known
    obtain ⟨⟨_, there⟩, known, rfl⟩ := Option.map_eq_some_iff.mp known
    exact different (steady.unique speaks known)
  · exact absurd (steady.bounded speaks) (new ▸ Nat.lt_irrefl _)

/-- Whoever is behind another socket hears what an arrival says, and nothing else happens to it. -/
theorem Steady.queued_take (steady : service.Steady) (timestamp : String) (arrival : Arrival)
    {other : Nat} (different : other ≠ socket)
    (speaks : service.speakerAt? other = some (id, listener)) :
    (service.take timestamp socket arrival).2.hub.queued id = service.hub.queued id ++
      (service.takeEvents timestamp socket arrival).filterMap Hub.Event.message? := by
  have taken := service.take_spec timestamp socket arrival
  have beside := steady.subject_ne taken different speaks
  exact ((taken.run.overhears steady.sound.hub beside).isMember (steady.member speaks)).2

private theorem stays_publishing {other : ConnectionId} {messages : List Inbound} :
    ∀ event ∈ publishing id timestamp messages false,
      event ≠ .detached other ∧ event ≠ .abandoned other := by
  intro event member
  rw [publishing, if_neg Bool.false_ne_true, List.append_nil] at member
  obtain ⟨message, _, rfl⟩ := List.mem_map.mp member
  simp

/-- A connection that goes on after an arrival at its socket is still a member, and one that comes
by it has become one. -/
theorem Effect.isMember (effect : service.Effect timestamp socket events said next)
    (run : Hub.Run service.hub events next.hub) (steady : service.Steady)
    (speaks : next.speakerAt? socket = some (id, listener)) : next.hub.IsMember id := by
  cases effect with
  | quiet sameHub same => exact sameHub ▸ steady.member (same.symm.trans speaks)
  | @speaks _ _ _ _ leaves known _ left =>
    rw [left] at speaks
    cases leaves with
    | true => cases speaks
    | false =>
      cases speaks
      exact run.isMember steady.sound.hub stays_publishing (steady.member known)
  | @joins _ _ _ leaves _ _ left =>
    rw [left] at speaks
    cases leaves with
    | true => cases speaks
    | false =>
      cases speaks
      cases run with
      | cons joined later =>
        cases joined
        exact Hub.Run.isMember later steady.sound.hub.attach stays_publishing
          (Hub.isMember_attach _)

theorem Steady.take (steady : service.Steady) (timestamp : String) (socket : Nat)
    (arrival : Arrival) : (service.take timestamp socket arrival).2.Steady := by
  have taken := service.take_spec timestamp socket arrival
  have effect := steady.take_effect timestamp socket arrival
  -- Whoever is behind another socket was there before, and has another number.
  have apart : ∀ {other id one two}, other ≠ socket →
      (service.take timestamp socket arrival).2.speakerAt? other = some (id, one) →
        (service.take timestamp socket arrival).2.speakerAt? socket ≠ some (id, two) := by
    intro other id one two different elsewhere here
    rw [speakerAt?_of_ne taken different] at elsewhere
    rcases effect.speaker here with known | new
    · exact different (steady.unique elsewhere known)
    · exact absurd (steady.bounded elsewhere) (new ▸ Nat.lt_irrefl _)
  constructor
  · exact taken.sound steady.sound
  · exact steady.isOpen_take timestamp arrival
  · intro first second id one two there elsewhere
    by_cases isFirst : first = socket
    · by_cases isSecond : second = socket
      · rw [isFirst, isSecond]
      · exact absurd (isFirst ▸ there) (apart isSecond elsewhere)
    · by_cases isSecond : second = socket
      · exact absurd (isSecond ▸ elsewhere) (apart isFirst there)
      · rw [speakerAt?_of_ne taken isFirst] at there
        rw [speakerAt?_of_ne taken isSecond] at elsewhere
        exact steady.unique there elsewhere
  · intro other id listener speaks
    by_cases same : other = socket
    · exact effect.isMember taken.run steady (same ▸ speaks)
    · rw [speakerAt?_of_ne taken same] at speaks
      apply taken.run.isMember steady.sound.hub _ (steady.member speaks)
      intro event member
      have different := steady.subject_ne taken same speaks event member
      constructor
      · rintro rfl
        exact different rfl
      · rintro rfl
        exact different rfl

theorem Effect.taken {timestamp : String} {events : List Hub.Event} {said : List Utterance}
    {next : Service} (effect : service.Effect timestamp socket events said next)
    (id : ConnectionId) : Hub.taken id events = [] := by
  cases effect with
  | quiet => rfl
  | speaks => exact taken_publishing ..
  | joins => exact taken_publishing ..

/-- A connection that goes on finds in its mailbox what was there, whatever it says. -/
theorem Steady.queued_own (steady : service.Steady) (timestamp : String) (arrival : Arrival)
    (speaks : service.speakerAt? socket = some (id, listener))
    (stays : (service.take timestamp socket arrival).2.speakerAt? socket = some (id, listener)) :
    (service.take timestamp socket arrival).2.hub.queued id = service.hub.queued id := by
  have effect := steady.take_effect timestamp socket arrival
  have member := (steady.take timestamp socket arrival).member stays
  have law := (service.take_spec timestamp socket arrival).run.taken_append_queued steady.sound.hub
    (isAbandoned_eq_false_of_isOpen member.isOpen)
  rw [effect.taken, List.nil_append] at law
  rw [law]
  generalize service.takeEvents timestamp socket arrival = events at effect
  generalize service.utterances socket arrival = said at effect
  cases effect with
  | quiet => exact List.append_nil _
  | speaks known =>
    cases known.symm.trans speaks
    rw [heard_publishing, if_neg fun both => both.2 rfl, List.append_nil]
  | joins unknown => cases unknown.symm.trans speaks

theorem Steady.poll (steady : service.Steady) {hub : Hub} {message : Stamped}
    (polled : service.hub.poll id = (some (.message message), hub)) :
    ({ service with hub } : Service).Steady := by
  have step := Hub.Step.poll polled
  constructor
  · constructor
    · exact step.sound steady.sound.hub
    · intro socket id known
      exact Nat.lt_of_lt_of_le (steady.sound.bounded known) (step.nextId_le steady.sound.hub)
  · exact steady.isOpen
  · exact steady.unique
  · intro socket id listener speaks
    exact step.isMember steady.sound.hub (by simp) (steady.member speaks)

theorem Steady.turn (steady : service.Steady) (turn : Turn) : (service.turn turn).Steady := by
  cases turn with
  | arrive timestamp socket arrival => exact steady.take timestamp socket arrival
  | forward socket =>
    rcases service.forward_cases socket with ⟨_, _, _, hub, _, polled, next, _, _⟩ | ⟨next, _⟩
    · rw [next]
      exact steady.poll polled
    · rw [next]
      exact steady

theorem steady_play (turns : List Turn) : (play {} turns).Steady :=
  foldl_invariant Steady (fun _ turn steady => Steady.turn steady turn) steady_empty turns

/-! ## Nobody else -/

/-- Whoever is attached is behind a socket. -/
def Accounted (service : Service) : Prop :=
  ∀ id, service.hub.isAttached id = true → ∃ socket listener,
    service.speakerAt? socket = some (id, listener)

private theorem attaches_leaving (messages : List Inbound) (attached : Bool) :
    (Hub.peerActs id (publishing id timestamp messages true)).foldl Hub.PeerAct.attaches attached =
      false := by
  rw [peerActs_publishing, List.foldl_append]
  rfl

theorem Steady.accounted_take (steady : service.Steady) (accounted : service.Accounted)
    (timestamp : String) (socket : Nat) (arrival : Arrival) :
    (service.take timestamp socket arrival).2.Accounted := by
  intro id attached
  have taken := service.take_spec timestamp socket arrival
  have effect := steady.take_effect timestamp socket arrival
  have joins := attached.symm.trans (taken.run.isAttached steady.sound.hub)
  generalize service.takeEvents timestamp socket arrival = events at taken effect joins
  generalize service.utterances socket arrival = said at effect
  -- Whoever is behind another socket stays there.
  have stays : ∀ {other listener}, other ≠ socket →
      service.speakerAt? other = some (id, listener) → ∃ other listener,
        (service.take timestamp socket arrival).2.speakerAt? other = some (id, listener) := by
    intro other listener different speaks
    exact ⟨other, listener, (speakerAt?_of_ne taken different).trans speaks⟩
  cases effect with
  | quiet sameHub same =>
    obtain ⟨other, listener, speaks⟩ := accounted id (sameHub ▸ attached)
    by_cases here : other = socket
    · exact ⟨socket, listener, same.trans (here ▸ speaks)⟩
    · exact stays here speaks
  | @speaks _ its listener said leaves known _ left =>
    by_cases own : its = id
    · subst own
      cases leaves with
      | true =>
        rw [attaches_leaving] at joins
        cases joins
      | false => exact ⟨socket, listener, left⟩
    · rw [Hub.peerActs_eq_nil] at joins
      rotate_left
      · intro event member same
        exact absurd ((subject_publishing member).symm.trans same) own
      obtain ⟨other, listener, speaks⟩ := accounted id joins.symm
      refine stays ?_ speaks
      rintro rfl
      exact own (congrArg Prod.fst (Option.some.inj (known.symm.trans speaks)))
  | @joins _ listener said leaves unknown _ left =>
    by_cases own : service.hub.nextId = id
    · subst own
      cases leaves with
      | true =>
        rw [Hub.peerActs, List.foldl_append, attaches_leaving] at joins
        cases joins
      | false => exact ⟨socket, listener, left⟩
    · rw [Hub.peerActs_eq_nil] at joins
      · obtain ⟨other, listener, speaks⟩ := accounted id joins.symm
        refine stays ?_ speaks
        rintro rfl
        cases unknown.symm.trans speaks
      · intro event member same
        rcases List.mem_cons.mp member with rfl | later
        · exact absurd same own
        · exact absurd ((subject_publishing later).symm.trans same) own

end Service

end ChatHub
