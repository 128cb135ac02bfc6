import MqttLink.Proofs.KeepAlive
import MqttLink.Proofs.Endpoint.Moves
import MqttLink.Proofs.Exchange.Steps
/-!
# An endpoint makes no other moves

`perform_move`: whatever happens to an endpoint, what comes of it is one of the moves. The functions of
the endpoint are opened here, each in its own lemma `…_move` or `…_cases`, so a change to one of them is
met here and in the constructor for it. They are opened again only where a move does not say enough:
when a request goes through that can be turned down, what `timeout` comes to at a given time, and what
two endpoints do alike.
-/

namespace MqttLink.Endpoint

open Reaction

/-! ## The ways out -/

theorem isClosed_awaiting {e : Endpoint} (h : e.session.phase = .awaitingConnect) :
    e.isClosed = false := by
  simp only [isClosed, Session.isClosing, h]; rfl

theorem isClosed_connected {e : Endpoint} (h : e.session.phase = .connected) :
    e.isClosed = false := by
  simp only [isClosed, Session.isClosing, h]; rfl

theorem closeWith_open {e : Endpoint} (reason : CloseReason) (h : e.isClosed = false) :
    e.closeWith reason = ⟨e.ended, #[], #[.closed reason (e.releasedWill reason)]⟩ := by
  simp only [closeWith, h, Bool.false_eq_true, if_false]; rfl

theorem closeWith_over {e : Endpoint} (reason : CloseReason) (h : e.isClosed = true) :
    e.closeWith reason = still e := by
  simp only [closeWith, h, if_true]

theorem refuse_open {e : Endpoint} (code : ConnectCode) (h : e.isClosed = false) :
    e.refuse code =
      ⟨e.ended, #[.connack false code], #[.closed (.rejected code) (e.releasedWill (.rejected code))]⟩ := by
  simp only [refuse, andThen, still, send, closeWith_open _ h]; rfl

theorem closeWith_move {now : Instant} {e : Endpoint} {input : Input} {reason : CloseReason}
    (answer : tooLate input = none) (ends : Ends now e input reason) :
    Move now e (.input input) none (e.closeWith reason) := by
  cases h : e.isClosed with
  | true =>
    rw [closeWith_over reason h]
    exact answer ▸ Move.ignored h
  | false =>
    rw [closeWith_open reason h]
    exact .ended h ends

theorem onDecodeError_move (now : Instant) (error : DecodeError) (e : Endpoint) :
    Move now e (.input (.decodeError error)) none (e.onDecodeError error) := by
  unfold onDecodeError
  cases h : e.isClosed with
  | true => exact .ignored h
  | false =>
    simp only [Bool.false_eq_true, if_false]
    split
    · rename_i level
      split
      · rename_i fresh
        simp only [Bool.and_eq_true, beq_iff_eq, Bool.not_eq_true'] at fresh
        rw [refuse_open _ h]
        exact .refused h (.level fresh.1 fresh.2)
      · rename_i stale
        simp only [Bool.and_eq_true, beq_iff_eq, Bool.not_eq_true', not_and,
          Bool.not_eq_false] at stale
        refine closeWith_move rfl (.decodeError (.inr ?_))
        by_cases hp : e.session.phase = .awaitingConnect
        · exact .inr (stale hp)
        · exact .inl hp
    · rename_i other
      exact closeWith_move rfl (.decodeError (.inl other))

theorem pollWatch_early {s : Session} {now : Instant} (early : (s.pollWatch now).1 = false) :
    (s.pollWatch now).2 = s := by
  unfold Session.pollWatch at early ⊢
  cases h : s.watch with
  | none => rfl
  | some w =>
    simp only [h] at early ⊢
    rw [KeepAlive.Watch.poll_early early, ← h]

theorem onTimeout_move (now : Instant) (e : Endpoint) :
    Move now e (.input .timeout) none (e.onTimeout now) := by
  unfold onTimeout
  split
  · rename_i phase
    have opened := isClosed_awaiting phase
    split
    · rename_i due waiting
      split
      · rename_i late; exact closeWith_move rfl (.noConnect phase waiting late)
      · exact .idle opened
    · rename_i due deferred asked
      split
      · rename_i late
        rw [refuse_open _ opened]
        exact .refused opened (.undecided phase asked late)
      · exact .idle opened
    · exact .idle opened
  · rename_i phase
    have opened := isClosed_connected phase
    simp only
    split
    · rename_i late
      have opened' : ({ e with session := (e.session.pollWatch now).2 } : Endpoint).isClosed = false := by
        rw [← opened]; unfold Session.pollWatch; split <;> rfl
      rw [closeWith_open _ opened']
      have := Move.ended opened (Ends.silent phase late)
      unfold Session.pollWatch
      split <;> exact this
    · rename_i early
      rw [pollWatch_early (Bool.eq_false_iff.2 early)]
      exact .idle opened
  · rename_i phase; exact .ignored (by simp only [isClosed, Session.isClosing, phase]; rfl)
  · rename_i phase; exact .ignored (by simp only [isClosed, Session.isClosing, phase]; rfl)

/-! ## Packets -/

theorem acknowledge_tell (e : Endpoint) (ack : Packet) (event : Event) :
    acknowledge ack ((still e).tell event) = ⟨e, e.reply ack, #[event]⟩ := by
  cases auto : e.policy.autoAck <;> simp [acknowledge, reply, still, Reaction.tell, send, auto]

/-- A packet from an accepted client is served, or breaks the protocol, or is the last. -/
theorem dispatch_cases (e : Endpoint) (p : Packet) :
    Served e p (e.dispatch p) ∨
      (∃ error, Violates e p error ∧ e.dispatch p = e.closeWith (.protocolError error)) ∨
      (p = .disconnect ∧ e.dispatch p = e.closeWith .graceful) := by
  cases p with
  | connect c => exact .inr (.inl ⟨_, .connect c, rfl⟩)
  | publish m =>
    simp only [dispatch, onPublish]
    cases h : e.session.exchanges.onPublish m with
    | error error => exact .inr (.inl ⟨_, .publish h, rfl⟩)
    | ok taken =>
      obtain ⟨d, f⟩ := taken
      refine .inl ?_
      rcases InFlight.onPublish_eq_ok.1 h with ⟨level, rfl, rfl⟩ |
        ⟨level, ⟨id, named, valid⟩, rfl, rfl⟩ |
        ⟨level, id, named, valid, ⟨held, rfl, rfl⟩ | ⟨unheld, rfl, hf⟩⟩
      · simp only [level]; exact .levelZero level
      · simp only [level, named, acknowledge_tell]; exact .levelOne level named valid
      · simp only [named]; exact .again level named valid held
      · simp only [level, named, acknowledge_tell]; exact .levelTwo level named valid unheld hf
  | puback id =>
    simp only [dispatch, onPuback]
    cases h : e.session.exchanges.onPuback id with
    | error error => exact .inr (.inl ⟨_, .puback h, rfl⟩)
    | ok f => exact .inl (.puback h)
  | pubrec id =>
    simp only [dispatch, onPubrec]
    cases h : e.session.exchanges.onPubrec id with
    | error error => exact .inr (.inl ⟨_, .pubrec h, rfl⟩)
    | ok f => simp only [acknowledge_tell]; exact .inl (.pubrec h)
  | pubrel id =>
    simp only [dispatch, onPubrel]
    cases h : e.session.exchanges.onPubrel id with
    | error error => exact .inr (.inl ⟨_, .pubrel h, rfl⟩)
    | ok f => simp only [acknowledge_tell]; exact .inl (.pubrel h)
  | pubcomp id =>
    simp only [dispatch, onPubcomp]
    cases h : e.session.exchanges.onPubcomp id with
    | error error => exact .inr (.inl ⟨_, .pubcomp h, rfl⟩)
    | ok f => exact .inl (.pubcomp h)
  | subscribe id subs =>
    simp only [dispatch, onSubscribe]
    by_cases valid : id = 0
    · subst valid; exact .inr (.inl ⟨_, .subscribeZero subs, rfl⟩)
    · cases used : e.subscribes.contains id with
      | true => exact .inr (.inl ⟨_, .subscribeAgain valid used, by simp [valid, violation]⟩)
      | false =>
        simp only [valid, Bool.false_eq_true, if_false]
        exact .inl (.subscribe valid used)
  | unsubscribe id filters =>
    simp only [dispatch, onUnsubscribe]
    by_cases valid : id = 0
    · subst valid; exact .inr (.inl ⟨_, .unsubscribeZero filters, rfl⟩)
    · cases used : e.unsubscribes.contains id with
      | true => exact .inr (.inl ⟨_, .unsubscribeAgain valid used, by simp [valid, violation]⟩)
      | false =>
        simp only [valid, Bool.false_eq_true, if_false]
        exact .inl (.unsubscribe valid used)
  | pingreq => exact .inl .pingreq
  | disconnect => exact .inr (.inr ⟨rfl, rfl⟩)
  | connack present code => exact .inr (.inl ⟨_, .unexpected (by simp [Packet.kind]), rfl⟩)
  | suback id codes => exact .inr (.inl ⟨_, .unexpected (by simp [Packet.kind]), rfl⟩)
  | unsuback id => exact .inr (.inl ⟨_, .unexpected (by simp [Packet.kind]), rfl⟩)
  | pingresp => exact .inr (.inl ⟨_, .unexpected (by simp [Packet.kind]), rfl⟩)

theorem receive_move (now : Instant) (p : Packet) (e : Endpoint) :
    Move now e (.input (.packet p)) none (e.receive now p) := by
  unfold receive
  split
  · rename_i phase
    have opened := isClosed_awaiting phase
    split
    · rename_i due held asked; exact .deferred phase asked
    · rename_i notAsked
      have undecided : e.isAwaitingDecision = false := by
        unfold isAwaitingDecision
        split
        · rename_i due held asked; exact absurd asked (notAsked due held)
        · rfl
      split
      · rename_i c
        unfold onConnect
        cases named : c.clientId.isEmpty && !c.cleanSession with
        | true =>
          simp only [if_true]
          rw [refuse_open _ (show isClosed { e with session := e.session.populate c } = false from opened)]
          exact .refused opened (.nameless phase undecided named)
        | false => exact .asked phase undecided named
      · rename_i other
        exact closeWith_move rfl (.early phase undecided other)
  · rename_i phase
    have opened := isClosed_connected phase
    have closing : ∀ reason, (e.touched now).closeWith reason =
        ⟨e.ended, #[], #[.closed reason (e.releasedWill reason)]⟩ :=
      fun reason => closeWith_open reason opened
    change Move now e (.input (.packet p)) none ((e.touched now).dispatch p)
    rcases dispatch_cases (e.touched now) p with served | ⟨error, broken, ends⟩ | ⟨rfl, ends⟩
    · exact .served phase served
    · rw [ends, closing]; exact .ended opened (.violation phase broken)
    · rw [ends, closing]; exact .ended opened (.disconnect phase)
  · rename_i phase; exact .ignored (by simp only [isClosed, Session.isClosing, phase]; rfl)
  · rename_i phase; exact .ignored (by simp only [isClosed, Session.isClosing, phase]; rfl)

/-! ## Requests -/

theorem bind_eq_ok {α β : Type} {x : Except ActionError α} {next : α → Except ActionError β} {y : β} :
    x >>= next = .ok y ↔ ∃ a, x = .ok a ∧ next a = .ok y := by
  cases x <;> simp [bind, Except.bind]

theorem map_none_eq_ok {x : Except ActionError Reaction} {id : Option PacketId} {r : Reaction} :
    x.map ((none : Option PacketId), ·) = .ok (id, r) ↔ id = none ∧ x = .ok r := by
  cases x <;> simp [Except.map, eq_comm]

theorem requireOpen_eq_ok {e : Endpoint} {u : Unit} : e.requireOpen = .ok u ↔ e.isClosed = false := by
  cases h : e.isClosed <;> simp [requireOpen, h]

theorem requireConnected_eq_ok {e : Endpoint} {u : Unit} :
    e.requireConnected = .ok u ↔ e.session.phase = .connected := by
  unfold requireConnected requireOpen isClosed Session.isClosing Session.isConnected
  cases e.session.phase <;> simp [Phase.rank, bind, Except.bind]

theorem requireExchange_eq_ok {e : Endpoint} {id : PacketId} {u : Unit} :
    e.requireExchange id = .ok u ↔ e.session.phase = .connected ∧ id ≠ 0 := by
  rw [requireExchange, bind_eq_ok]
  constructor
  · rintro ⟨v, hv, hid⟩
    split at hid
    · cases hid
    · rename_i valid; exact ⟨requireConnected_eq_ok.1 hv, valid⟩
  · rintro ⟨phase, valid⟩
    exact ⟨(), requireConnected_eq_ok.2 phase, by simp only [valid, if_false]⟩

theorem requireOpen_over {e : Endpoint} (gone : e.isClosed = true) : e.requireOpen = .error .closed := by
  simp only [requireOpen, gone, if_true]

theorem requireConnected_over {e : Endpoint} (gone : e.isClosed = true) :
    e.requireConnected = .error .closed := by
  rw [requireConnected, requireOpen_over gone]; rfl

theorem requireExchange_over {e : Endpoint} (id : PacketId) (gone : e.isClosed = true) :
    e.requireExchange id = .error .closed := by
  rw [requireExchange, requireConnected_over gone]; rfl

/-- **Requests come too late once the connection is over.** -/
theorem attempt_over {e : Endpoint} (now : Instant) (a : Action) (gone : e.isClosed = true) :
    e.attempt now a = .error .closed := by
  cases a <;>
    simp only [attempt, accept, reject, publish, retransmit, subscribeAcknowledge,
      unsubscribeAcknowledge, publishAcknowledge, publishReceived, publishRelease, publishComplete,
      requireOpen_over gone, requireConnected_over gone, requireExchange_over _ gone] <;> rfl

/-- A request other than accept and reject that goes through is one of those that are granted. -/
theorem attempt_granted {e : Endpoint} {now : Instant} {a : Action} {id : Option PacketId}
    {r : Reaction} (h : e.attempt now a = .ok (id, r))
    (decided : (∀ present, a ≠ .accept present) ∧ ∀ code, a ≠ .reject code) :
    e.session.phase = .connected ∧ Granted e a id r := by
  cases a with
  | accept present => exact absurd rfl (decided.1 present)
  | reject code => exact absurd rfl (decided.2 code)
  | publish topic payload qos dup retain =>
    simp only [attempt, publish, bind_eq_ok] at h
    obtain ⟨u, hu, h⟩ := h
    refine ⟨requireConnected_eq_ok.1 hu, ?_⟩
    split at h
    · rename_i name
      split at h
      · cases h
      · rename_i m f fits
        cases h
        exact .publish name fits
    · cases h
  | retransmit id =>
    simp only [attempt, map_none_eq_ok, retransmit, bind_eq_ok] at h
    obtain ⟨rfl, u, hu, h⟩ := h
    refine ⟨requireConnected_eq_ok.1 hu, ?_⟩
    split at h
    · cases h
    · rename_i p f fits
      cases h
      exact .retransmit fits
  | subscribeAcknowledge id codes =>
    simp only [attempt, map_none_eq_ok, subscribeAcknowledge, bind_eq_ok] at h
    obtain ⟨rfl, u, hu, h⟩ := h
    refine ⟨requireConnected_eq_ok.1 hu, ?_⟩
    split at h
    · cases h
    · rename_i expected due
      split at h
      · rename_i complete
        cases h
        exact .subscribeAcknowledge (complete ▸ due)
      · cases h
  | unsubscribeAcknowledge id =>
    simp only [attempt, map_none_eq_ok, unsubscribeAcknowledge, bind_eq_ok] at h
    obtain ⟨rfl, u, hu, h⟩ := h
    refine ⟨requireConnected_eq_ok.1 hu, ?_⟩
    split at h
    · rename_i due
      cases h
      exact .unsubscribeAcknowledge due
    · cases h
  | publishAcknowledge id =>
    simp only [attempt, map_none_eq_ok, publishAcknowledge, bind_eq_ok] at h
    obtain ⟨rfl, u, hu, h⟩ := h
    obtain ⟨phase, valid⟩ := requireExchange_eq_ok.1 hu
    cases h
    exact ⟨phase, .publishAcknowledge valid⟩
  | publishReceived id =>
    simp only [attempt, map_none_eq_ok, publishReceived, bind_eq_ok] at h
    obtain ⟨rfl, u, hu, h⟩ := h
    obtain ⟨phase, valid⟩ := requireExchange_eq_ok.1 hu
    split at h
    · rename_i held
      cases h
      exact ⟨phase, .publishReceived valid held⟩
    · cases h
  | publishRelease id =>
    simp only [attempt, map_none_eq_ok, publishRelease, bind_eq_ok] at h
    obtain ⟨rfl, u, hu, h⟩ := h
    obtain ⟨phase, valid⟩ := requireExchange_eq_ok.1 hu
    split at h
    · rename_i received
      cases h
      exact ⟨phase, .publishRelease valid received⟩
    · cases h
    · cases h
  | publishComplete id =>
    simp only [attempt, map_none_eq_ok, publishComplete, bind_eq_ok] at h
    obtain ⟨rfl, u, hu, h⟩ := h
    obtain ⟨phase, valid⟩ := requireExchange_eq_ok.1 hu
    split at h
    · cases h
    · rename_i unheld
      cases h
      exact ⟨phase, .publishComplete valid (Bool.eq_false_iff.2 unheld)⟩

theorem reject_eq_ok {e : Endpoint} {code : ConnectCode} {r : Reaction} :
    e.reject code = .ok r ↔
      e.isClosed = false ∧ code.isAccepted = false ∧ e.isAwaitingDecision = true ∧
        r = e.refuse code := by
  simp only [reject, bind_eq_ok, requireOpen_eq_ok]
  cases code.isAccepted <;> cases e.isAwaitingDecision <;>
    simp [pure, Except.pure, @eq_comm _ r]

theorem accept_eq_ok {e : Endpoint} {now : Instant} {present : Bool} {r : Reaction} :
    e.accept now present = .ok r ↔
      e.isClosed = false ∧ ∃ due deferred, e.handshake = .deciding due deferred ∧
        r = deferred.foldl (fun r p => r.andThen (receive now p)) (e.welcome now present) := by
  simp only [accept, bind_eq_ok, requireOpen_eq_ok]
  cases e.handshake with
  | deciding due deferred =>
    simp only [Except.pure, pure, Except.ok.injEq, Handshake.deciding.injEq, exists_const]
    constructor
    · rintro ⟨opened, rfl⟩; exact ⟨opened, due, deferred, ⟨rfl, rfl⟩, rfl⟩
    · rintro ⟨opened, due, deferred, ⟨rfl, rfl⟩, rfl⟩; exact ⟨opened, rfl⟩
  | _ => simp

theorem act_move {e : Endpoint} {now : Instant} {a : Action}
    (possible : Possible e (.input (.action a))) :
    Move now e (.input (.action a)) (some (e.act now a).1) (e.act now a).2 := by
  rw [act_eq]
  cases gone : e.isClosed with
  | true => rw [attempt_over now a gone]; exact .ignored gone
  | false =>
    cases h : e.attempt now a with
    | error error => exact .denied gone h
    | ok granted =>
      obtain ⟨id, r⟩ := granted
      cases a with
      | accept present =>
        simp only [attempt, map_none_eq_ok, accept_eq_ok] at h
        obtain ⟨-, -, due, deferred, asked, -⟩ := h
        simp [Possible, canAccept, gone, isAwaitingDecision, asked] at possible
      | reject code =>
        simp only [attempt, map_none_eq_ok, reject_eq_ok] at h
        obtain ⟨rfl, -, failure, asked, rfl⟩ := h
        rw [refuse_open code gone]
        exact .refused gone (.reject failure asked)
      | publish | retransmit | subscribeAcknowledge | unsubscribeAcknowledge | publishAcknowledge
      | publishReceived | publishRelease | publishComplete =>
        obtain ⟨phase, fits⟩ := attempt_granted h ⟨nofun, nofun⟩
        exact .granted phase fits

/-- **An endpoint makes no other moves.** -/
theorem perform_move {e : Endpoint} (now : Instant) {d : Deed} (possible : Possible e d) :
    Move now e d (perform now d e).1 (perform now d e).2 := by
  cases d with
  | welcome present => exact .welcomed possible
  | input input =>
    cases input with
    | packet p => exact receive_move now p e
    | decodeError error => exact onDecodeError_move now error e
    | transportClosed => exact closeWith_move rfl .transportClosed
    | timeout => exact onTimeout_move now e
    | close => exact closeWith_move rfl .close
    | action a => exact act_move possible

end MqttLink.Endpoint
