import MqttLink.Proofs.Endpoint.Manual
/-!
# What acknowledging alone makes no difference to

An endpoint that acknowledges messages on its own and one that leaves this to the application, given
the same inputs at the same times, come to the same state, tell the application the same and answer its
requests alike. The second says less to the client: some of the four acknowledgments are missing.

`unaided` turns the first endpoint into the second. Every function of an endpoint commutes with it,
except for `acknowledge`, and the functions that come to it say less (`Spares`).
-/

namespace MqttLink

/-- The packets of a list that remain when some acknowledgments are left out. -/
inductive Thinned : List Packet → List Packet → Prop where
  | done : Thinned [] []
  | kept (p : Packet) {all remaining : List Packet} (rest : Thinned all remaining) :
    Thinned (p :: all) (p :: remaining)
  | missing {ack : Packet} {all remaining : List Packet} (isAck : ack.isAck = true)
    (rest : Thinned all remaining) : Thinned (ack :: all) remaining

namespace Thinned

theorem refl (packets : List Packet) : Thinned packets packets := by
  induction packets with
  | nil => exact .done
  | cons p packets ih => exact .kept p ih

theorem append {all remaining all' remaining' : List Packet} (first : Thinned all remaining)
    (second : Thinned all' remaining') : Thinned (all ++ all') (remaining ++ remaining') := by
  induction first with
  | done => exact second
  | kept p _ ih => exact .kept p ih
  | missing isAck _ ih => exact .missing isAck ih

end Thinned

namespace Endpoint

open Reaction

/-- The same endpoint, if it left acknowledgments to the application. -/
def unaided (e : Endpoint) : Endpoint := { e with policy := { e.policy with autoAck := false } }

@[simp] theorem unaided_session (e : Endpoint) : e.unaided.session = e.session := rfl

@[simp] theorem unaided_handshake (e : Endpoint) : e.unaided.handshake = e.handshake := rfl

@[simp] theorem unaided_subscribes (e : Endpoint) : e.unaided.subscribes = e.subscribes := rfl

@[simp] theorem unaided_unsubscribes (e : Endpoint) : e.unaided.unsubscribes = e.unsubscribes := rfl

@[simp] theorem unaided_isClosed (e : Endpoint) : e.unaided.isClosed = e.isClosed := rfl

@[simp] theorem unaided_isAwaitingDecision (e : Endpoint) :
    e.unaided.isAwaitingDecision = e.isAwaitingDecision := rfl

end Endpoint

/-- The same reaction of the endpoint that leaves acknowledgments to the application. -/
def Reaction.unaided (r : Reaction) : Reaction := { r with endpoint := r.endpoint.unaided }

namespace Endpoint

open Reaction

/-- The second reaction is what the endpoint does without acknowledgments of its own where it does the
first with them. -/
structure Spares (r r' : Reaction) : Prop where
  endpoint : r'.endpoint = r.endpoint.unaided
  events : r'.events = r.events
  packets : Thinned r.packets.toList r'.packets.toList

namespace Spares

theorem same (r : Reaction) : Spares r r.unaided := ⟨rfl, rfl, .refl _⟩

theorem of_eq {r r' : Reaction} (h : r' = r.unaided) : Spares r r' := h ▸ same r

theorem andThen {r r' : Reaction} {next : Endpoint → Reaction} (first : Spares r r')
    (later : ∀ e, Spares (next e) (next e.unaided)) : Spares (r.andThen next) (r'.andThen next) := by
  have second := later r.endpoint
  rw [← first.endpoint] at second
  refine ⟨second.endpoint, ?_, ?_⟩
  · simp only [Reaction.andThen, first.events, second.events]
  · simp only [Reaction.andThen, Array.toList_append]
    exact first.packets.append second.packets

theorem foldl {α : Type} {act : α → Endpoint → Reaction}
    (acts : ∀ x e, Spares (act x e) (act x e.unaided)) (l : List α) {r r' : Reaction}
    (first : Spares r r') :
    Spares (l.foldl (fun r x => r.andThen (act x)) r) (l.foldl (fun r x => r.andThen (act x)) r') := by
  induction l generalizing r r' with
  | nil => exact first
  | cons x l ih => exact ih (first.andThen (acts x))

end Spares

/-! ## Ways out -/

theorem closeWith_unaided (reason : CloseReason) (e : Endpoint) :
    e.unaided.closeWith reason = (e.closeWith reason).unaided := by
  cases h : e.isClosed with
  | true => rw [closeWith_over reason h, closeWith_over reason (e := e.unaided) h]; rfl
  | false => rw [closeWith_open reason h, closeWith_open reason (e := e.unaided) h]; rfl

theorem refuse_unaided (code : ConnectCode) (e : Endpoint) :
    e.unaided.refuse code = (e.refuse code).unaided := by
  simp only [refuse, Reaction.andThen, still, send, closeWith_unaided]
  rfl

theorem onDecodeError_unaided (error : DecodeError) (e : Endpoint) :
    e.unaided.onDecodeError error = (e.onDecodeError error).unaided := by
  simp only [onDecodeError, unaided_isClosed, unaided_isAwaitingDecision, unaided_session,
    closeWith_unaided, refuse_unaided]
  split
  · rfl
  · split
    · split <;> rfl
    · rfl

theorem onTimeout_unaided (now : Instant) (e : Endpoint) :
    e.unaided.onTimeout now = (e.onTimeout now).unaided := by
  unfold onTimeout
  rw [unaided_session, unaided_handshake]
  cases e.session.phase with
  | awaitingConnect =>
    cases e.handshake with
    | waiting due => simp only [closeWith_unaided]; split <;> rfl
    | deciding due deferred => simp only [refuse_unaided]; split <;> rfl
    | _ => rfl
  | connected =>
    obtain ⟨expired, session⟩ := e.session.pollWatch now
    cases expired with
    | false => rfl
    | true => exact closeWith_unaided .keepAliveExpired { e with session }
  | closing | closed => rfl

/-! ## Packets -/

theorem acknowledge_spares {ack : Packet} (isAck : ack.isAck = true) (r : Reaction) :
    Spares (acknowledge ack r) (acknowledge ack r.unaided) := by
  have silent : acknowledge ack r.unaided = r.unaided := rfl
  rw [silent]
  unfold acknowledge
  split
  · refine ⟨rfl, rfl, ?_⟩
    rw [send, Array.toList_push, ← List.append_nil r.unaided.packets.toList]
    exact (Thinned.refl _).append (.missing isAck .done)
  · exact .same r

theorem onConnect_unaided (now : Instant) (c : Connect) (e : Endpoint) :
    e.unaided.onConnect now c = (e.onConnect now c).unaided := by
  unfold onConnect
  cases c.clientId.isEmpty && !c.cleanSession with
  | true => exact refuse_unaided _ { e with session := e.session.populate c }
  | false => rfl

theorem onPublish_spares (m : Publish) (e : Endpoint) : Spares (e.onPublish m) (e.unaided.onPublish m) := by
  unfold onPublish
  rw [unaided_session]
  cases e.session.exchanges.onPublish m with
  | error error => exact .of_eq (closeWith_unaided _ e)
  | ok taken =>
    obtain ⟨disposition, exchanges⟩ := taken
    cases disposition with
    | duplicate => exact .same _
    | deliver =>
      cases level : m.qos with
      | atMostOnce => exact .same _
      | atLeastOnce => exact acknowledge_spares rfl _
      | exactlyOnce => exact acknowledge_spares rfl _

theorem onPuback_unaided (id : PacketId) (e : Endpoint) :
    e.unaided.onPuback id = (e.onPuback id).unaided := by
  unfold onPuback
  rw [unaided_session]
  cases e.session.exchanges.onPuback id with
  | error error => exact closeWith_unaided _ e
  | ok exchanges => rfl

theorem onPubrec_spares (id : PacketId) (e : Endpoint) : Spares (e.onPubrec id) (e.unaided.onPubrec id) := by
  unfold onPubrec
  rw [unaided_session]
  cases e.session.exchanges.onPubrec id with
  | error error => exact .of_eq (closeWith_unaided _ e)
  | ok exchanges => exact acknowledge_spares rfl _

theorem onPubrel_spares (id : PacketId) (e : Endpoint) : Spares (e.onPubrel id) (e.unaided.onPubrel id) := by
  unfold onPubrel
  rw [unaided_session]
  cases e.session.exchanges.onPubrel id with
  | error error => exact .of_eq (closeWith_unaided _ e)
  | ok exchanges => exact acknowledge_spares rfl _

theorem onPubcomp_unaided (id : PacketId) (e : Endpoint) :
    e.unaided.onPubcomp id = (e.onPubcomp id).unaided := by
  unfold onPubcomp
  rw [unaided_session]
  cases e.session.exchanges.onPubcomp id with
  | error error => exact closeWith_unaided _ e
  | ok exchanges => rfl

theorem onSubscribe_unaided (id : PacketId) (subs : List Subscription) (e : Endpoint) :
    e.unaided.onSubscribe id subs = (e.onSubscribe id subs).unaided := by
  simp only [onSubscribe, violation, closeWith_unaided, unaided_subscribes]
  split
  · rfl
  · cases e.subscribes.contains id <;> rfl

theorem onUnsubscribe_unaided (id : PacketId) (filters : List String) (e : Endpoint) :
    e.unaided.onUnsubscribe id filters = (e.onUnsubscribe id filters).unaided := by
  simp only [onUnsubscribe, violation, closeWith_unaided, unaided_unsubscribes]
  split
  · rfl
  · cases e.unsubscribes.contains id <;> rfl

theorem dispatch_spares (p : Packet) (e : Endpoint) : Spares (e.dispatch p) (e.unaided.dispatch p) := by
  cases p with
  | publish m => exact onPublish_spares m e
  | pubrec id => exact onPubrec_spares id e
  | pubrel id => exact onPubrel_spares id e
  | puback id => exact .of_eq (onPuback_unaided id e)
  | pubcomp id => exact .of_eq (onPubcomp_unaided id e)
  | subscribe id subs => exact .of_eq (onSubscribe_unaided id subs e)
  | unsubscribe id filters => exact .of_eq (onUnsubscribe_unaided id filters e)
  | pingreq => exact .same _
  | connect | disconnect | connack | suback | unsuback | pingresp => exact .of_eq (closeWith_unaided _ e)

theorem receive_spares (now : Instant) (p : Packet) (e : Endpoint) :
    Spares (e.receive now p) (e.unaided.receive now p) := by
  simp only [receive, unaided_session, unaided_handshake]
  cases e.session.phase with
  | awaitingConnect =>
    cases e.handshake with
    | deciding due deferred => exact .same _
    | _ =>
      cases p with
      | connect c => exact .of_eq (onConnect_unaided now c e)
      | _ => exact .of_eq (closeWith_unaided _ e)
  | connected => exact dispatch_spares p { e with session := e.session.touch now }
  | closing | closed => exact .same _

/-! ## Requests -/

theorem bind_map {α β γ : Type} (x : Except ActionError α) {f : α → Except ActionError β}
    {g : α → Except ActionError γ} {h : β → γ} (same : ∀ a, g a = (f a).map h) :
    x >>= g = (x >>= f).map h := by
  cases x with
  | error error => rfl
  | ok a => exact same a

theorem reject_unaided (code : ConnectCode) (e : Endpoint) :
    e.unaided.reject code = (e.reject code).map Reaction.unaided := by
  refine bind_map e.requireOpen fun _ => ?_
  rw [unaided_isAwaitingDecision, refuse_unaided]
  cases code.isAccepted <;> cases e.isAwaitingDecision <;> rfl

theorem publish_unaided (topic : String) (payload : Bytes) (qos : Qos) (dup retain : Bool) (e : Endpoint) :
    e.unaided.publish topic payload qos dup retain =
      (e.publish topic payload qos dup retain).map fun (id, r) => (id, r.unaided) := by
  refine bind_map e.requireConnected fun _ => ?_
  rw [unaided_session]
  cases Topic.isName topic with
  | false => rfl
  | true => simp only [if_true]; cases e.session.exchanges.register _ <;> rfl

theorem retransmit_unaided (id : PacketId) (e : Endpoint) :
    e.unaided.retransmit id = (e.retransmit id).map Reaction.unaided := by
  refine bind_map e.requireConnected fun _ => ?_
  rw [unaided_session]
  cases e.session.exchanges.retransmit id <;> rfl

theorem subscribeAcknowledge_unaided (id : PacketId) (codes : List SubackCode) (e : Endpoint) :
    e.unaided.subscribeAcknowledge id codes = (e.subscribeAcknowledge id codes).map Reaction.unaided := by
  refine bind_map e.requireConnected fun _ => ?_
  rw [unaided_subscribes]
  cases e.subscribes[id]? with
  | none => rfl
  | some expected => simp only; split <;> rfl

theorem unsubscribeAcknowledge_unaided (id : PacketId) (e : Endpoint) :
    e.unaided.unsubscribeAcknowledge id = (e.unsubscribeAcknowledge id).map Reaction.unaided := by
  refine bind_map e.requireConnected fun _ => ?_
  rw [unaided_unsubscribes]
  cases e.unsubscribes.contains id <;> rfl

theorem publishAcknowledge_unaided (id : PacketId) (e : Endpoint) :
    e.unaided.publishAcknowledge id = (e.publishAcknowledge id).map Reaction.unaided :=
  bind_map (e.requireExchange id) fun _ => rfl

theorem publishReceived_unaided (id : PacketId) (e : Endpoint) :
    e.unaided.publishReceived id = (e.publishReceived id).map Reaction.unaided := by
  refine bind_map (e.requireExchange id) fun _ => ?_
  rw [unaided_session]
  cases e.session.exchanges.isIncoming id <;> rfl

theorem publishRelease_unaided (id : PacketId) (e : Endpoint) :
    e.unaided.publishRelease id = (e.publishRelease id).map Reaction.unaided := by
  refine bind_map (e.requireExchange id) fun _ => ?_
  rw [unaided_session]
  cases e.session.exchanges.outgoing[id]? with
  | none => rfl
  | some x => cases x <;> rfl

theorem publishComplete_unaided (id : PacketId) (e : Endpoint) :
    e.unaided.publishComplete id = (e.publishComplete id).map Reaction.unaided := by
  refine bind_map (e.requireExchange id) fun _ => ?_
  rw [unaided_session]
  cases e.session.exchanges.isIncoming id <;> rfl

/-- A request other than accept comes to the same. -/
theorem attempt_unaided {a : Action} (other : ∀ present, a ≠ .accept present) (now : Instant) (e : Endpoint) :
    e.unaided.attempt now a = (e.attempt now a).map fun (id, r) => (id, r.unaided) := by
  have unnamed (x : Except ActionError Reaction) :
      (x.map Reaction.unaided).map ((none : Option PacketId), ·) =
        (x.map ((none : Option PacketId), ·)).map fun (id, r) => (id, r.unaided) := by cases x <;> rfl
  cases a with
  | accept present => exact absurd rfl (other present)
  | publish topic payload qos dup retain => exact publish_unaided topic payload qos dup retain e
  | reject | retransmit | subscribeAcknowledge | unsubscribeAcknowledge | publishAcknowledge
  | publishReceived | publishRelease | publishComplete =>
    simp only [attempt, reject_unaided, retransmit_unaided, subscribeAcknowledge_unaided,
      unsubscribeAcknowledge_unaided, publishAcknowledge_unaided, publishReceived_unaided,
      publishRelease_unaided, publishComplete_unaided]
    exact unnamed _

/-- An accept is granted to both or to neither; what was held back is dealt with alike. -/
theorem accept_spares (now : Instant) (present : Bool) (e : Endpoint) :
    (∃ error, e.accept now present = .error error ∧ e.unaided.accept now present = .error error) ∨
      ∃ r r', e.accept now present = .ok r ∧ e.unaided.accept now present = .ok r' ∧ Spares r r' := by
  unfold accept
  rw [unaided_handshake, show e.unaided.requireOpen = e.requireOpen from rfl]
  cases e.requireOpen with
  | error error => exact .inl ⟨error, rfl, rfl⟩
  | ok _ =>
    cases e.handshake with
    | deciding due deferred =>
      refine .inr ⟨_, _, rfl, rfl, ?_⟩
      simp only [← Array.foldl_toList]
      exact (Spares.same (e.welcome now present)).foldl (receive_spares now) deferred.toList
    | _ => exact .inl ⟨_, rfl, rfl⟩

theorem act_spares (now : Instant) (a : Action) (e : Endpoint) :
    (e.unaided.act now a).1 = (e.act now a).1 ∧ Spares (e.act now a).2 (e.unaided.act now a).2 := by
  by_cases accepts : ∃ present, a = .accept present
  · obtain ⟨present, rfl⟩ := accepts
    simp only [act_eq, attempt]
    rcases accept_spares now present e with ⟨error, turned, turned'⟩ | ⟨r, r', granted, granted', spares⟩
    · simp only [turned, turned', Except.map]
      exact ⟨trivial, .same _⟩
    · simp only [granted, granted', Except.map]
      exact ⟨trivial, spares⟩
  · simp only [act_eq]
    rw [attempt_unaided fun present same => accepts ⟨present, same⟩]
    cases e.attempt now a with
    | error error => exact ⟨rfl, .same _⟩
    | ok granted => exact ⟨rfl, .same _⟩

/-! ## Whole runs -/

/-- **An input comes to the same**, with the same answer, but for acknowledgments. -/
theorem step_spares (now : Instant) (input : Input) (e : Endpoint) :
    (e.unaided.step now input).1 = (e.step now input).1 ∧
      Spares (e.step now input).2 (e.unaided.step now input).2 := by
  cases input with
  | packet p => exact ⟨rfl, receive_spares now p e⟩
  | decodeError error => exact ⟨rfl, .of_eq (onDecodeError_unaided error e)⟩
  | transportClosed => exact ⟨rfl, .of_eq (closeWith_unaided _ e)⟩
  | timeout => exact ⟨rfl, .of_eq (onTimeout_unaided now e)⟩
  | close => exact ⟨rfl, .of_eq (closeWith_unaided _ e)⟩
  | action a => exact ⟨congrArg some (act_spares now a e).1, (act_spares now a e).2⟩

theorem run_spares (e : Endpoint) (inputs : List (Instant × Input)) :
    Spares (e.run inputs) (e.unaided.run inputs) :=
  (Spares.same (still e)).foldl (fun x e => (step_spares x.1 x.2 e).2) inputs

theorem log_unaided (e : Endpoint) (inputs : List (Instant × Input)) :
    (e.unaided.log inputs).map Entry.answer = (e.log inputs).map Entry.answer := by
  induction inputs generalizing e with
  | nil => rfl
  | cons x rest ih =>
    obtain ⟨now, input⟩ := x
    obtain ⟨answer, spares⟩ := step_spares now input e
    simp only [log, List.map_cons, spares.endpoint, ih]
    exact congrArg (· :: _) answer

/-- **Acknowledging alone makes no other difference.** An endpoint that acknowledges on its own and one
that leaves this to the application, given the same inputs at the same times: they come to the same
session, the same decision to be made with the same packets held back, and the same SUBSCRIBE and
UNSUBSCRIBE packets to be answered; they tell the same events and give the same answers; and what the
second sends is what the first sends without some of the four acknowledgments. -/
theorem run_autoAck (policy : Policy) (opened : Instant) (inputs : List (Instant × Input)) :
    let alone := start { policy with autoAck := true } opened
    let manual := start { policy with autoAck := false } opened
    (manual.run inputs).endpoint.session = (alone.run inputs).endpoint.session ∧
    (manual.run inputs).endpoint.handshake = (alone.run inputs).endpoint.handshake ∧
    (manual.run inputs).endpoint.subscribes = (alone.run inputs).endpoint.subscribes ∧
    (manual.run inputs).endpoint.unsubscribes = (alone.run inputs).endpoint.unsubscribes ∧
    (manual.run inputs).events = (alone.run inputs).events ∧
    (manual.log inputs).map Entry.answer = (alone.log inputs).map Entry.answer ∧
    Thinned (alone.run inputs).packets.toList (manual.run inputs).packets.toList := by
  intro alone manual
  have spares : Spares (alone.run inputs) (manual.run inputs) := run_spares alone inputs
  rw [spares.endpoint]
  exact ⟨rfl, rfl, rfl, rfl, spares.events, log_unaided alone inputs, spares.packets⟩

end Endpoint
end MqttLink
