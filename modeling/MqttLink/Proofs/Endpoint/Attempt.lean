import MqttLink.Endpoint.Action
import MqttLink.Proofs.Exchange.Identifiers
/-!
# A request as one decision

A request is carried out step by step, and a step may turn it down after others have changed
something. Here it is decided at once, from the endpoint as it is: it is turned down with an error, or
it is granted and goes on with a reaction. `outcome_request` proves that the steps come to the same,
whatever state the endpoint is in and whatever its queues hold: a request that is turned down leaves
everything as it was.

What is proved of requests is proved of the decision; the steps are not looked at outside this module.
-/

namespace MqttLink.Endpoint

open Reaction

/-- Requests come too late once the connection is over. -/
def requireOpen (e : Endpoint) : Except ActionError Unit :=
  if e.isClosed then .error .closed else .ok ()

/-- Most requests need an accepted client. -/
def requireConnected (e : Endpoint) : Except ActionError Unit := do
  e.requireOpen
  if e.session.isConnected then .ok () else .error .notConnected

/-- Acknowledgments also need an identifier. -/
def requireExchange (e : Endpoint) (id : PacketId) : Except ActionError Unit := do
  e.requireConnected
  if id = 0 then .error .zeroPacketId else .ok ()

/-! ## The decision about CONNECT -/

/-- Tells the client that it is let in. The watch over it starts now. A clean
session is never present. -/
def welcome (now : Instant) (sessionPresent : Bool) (e : Endpoint) : Reaction :=
  let session := { e.session with phase := .connected }.startWatch now
  let present := sessionPresent && !session.cleanSession
  (still { e with session, handshake := .over }).send (.connack present .accepted)

/-- Lets the client in. What it has sent in the meantime is dealt with as if it
came now. -/
def accept (now : Instant) (sessionPresent : Bool) (e : Endpoint) :
    Except ActionError Reaction := do
  e.requireOpen
  match e.handshake with
  | .deciding _ deferred =>
    return deferred.foldl (fun r p => r.andThen (receive now p)) (e.welcome now sessionPresent)
  | _ => .error .noPendingConnect

/-- Turns the client away. -/
def reject (code : ConnectCode) (e : Endpoint) : Except ActionError Reaction := do
  e.requireOpen
  if code.isAccepted then .error .invalidRejectCode
  else if e.isAwaitingDecision then return e.refuse code
  else .error .noPendingConnect

/-! ## Messages -/

/-- Sends a message to the client. Levels 1 and 2 start an exchange. -/
def publish (topic : String) (payload : Bytes) (qos : Qos) (dup retain : Bool) (e : Endpoint) :
    Except ActionError (Option PacketId × Reaction) := do
  e.requireConnected
  if Topic.isName topic then
    let message : Publish :=
      { dup := dup && qos.needsId, qos, retain, topic, packetId := none, payload }
    match e.session.exchanges.register message with
    | .error error => .error error.asRefusal
    | .ok (message, exchanges) =>
      return (message.packetId, (still (e.withExchanges exchanges)).send (.publish message))
  else .error .invalidTopic

/-- Sends the current step of an outgoing exchange again. -/
def retransmit (id : PacketId) (e : Endpoint) : Except ActionError Reaction := do
  e.requireConnected
  match e.session.exchanges.retransmit id with
  | .error error => .error error.asRefusal
  | .ok (p, exchanges) => return (still (e.withExchanges exchanges)).send p

/-- Acknowledges a level-1 message. -/
def publishAcknowledge (id : PacketId) (e : Endpoint) : Except ActionError Reaction := do
  e.requireExchange id
  return (still e).send (.puback id)

/-- Acknowledges a level-2 message that waits for PUBREL. -/
def publishReceived (id : PacketId) (e : Endpoint) : Except ActionError Reaction := do
  e.requireExchange id
  if e.session.exchanges.isIncoming id then return (still e).send (.pubrec id)
  else .error (.unknownPacketId id)

/-- Releases a level-2 message that the client has acknowledged. -/
def publishRelease (id : PacketId) (e : Endpoint) : Except ActionError Reaction := do
  e.requireExchange id
  match e.session.exchanges.outgoing[id]? with
  | some .received => return (still e).send (.pubrel id)
  | some (.sent _) => .error (.unexpectedStage id)
  | none => .error (.unknownPacketId id)

/-- Completes a level-2 message that the client has released. -/
def publishComplete (id : PacketId) (e : Endpoint) : Except ActionError Reaction := do
  e.requireExchange id
  if e.session.exchanges.isIncoming id then .error (.unexpectedStage id)
  else return (still e).send (.pubcomp id)

/-! ## Subscriptions -/

/-- Answers SUBSCRIBE, with one code for each of its filters. -/
def subscribeAcknowledge (id : PacketId) (codes : List SubackCode) (e : Endpoint) :
    Except ActionError Reaction := do
  e.requireConnected
  match e.subscribes[id]? with
  | none => .error (.unknownSubscribe id)
  | some expected =>
    if codes.length = expected then
      return (still { e with subscribes := e.subscribes.erase id }).send (.suback id codes)
    else .error (.returnCodeCountMismatch expected codes.length)

/-- Answers UNSUBSCRIBE. -/
def unsubscribeAcknowledge (id : PacketId) (e : Endpoint) : Except ActionError Reaction := do
  e.requireConnected
  if e.unsubscribes.contains id then
    return (still { e with unsubscribes := e.unsubscribes.erase id }).send (.unsuback id)
  else .error (.unknownUnsubscribe id)

/-- Decides about a request. -/
def attempt (now : Instant) (a : Action) (e : Endpoint) :
    Except ActionError (Option PacketId × Reaction) :=
  match a with
  | .accept sessionPresent => (e.accept now sessionPresent).map (none, ·)
  | .reject code => (e.reject code).map (none, ·)
  | .publish topic payload qos dup retain => e.publish topic payload qos dup retain
  | .retransmit id => (e.retransmit id).map (none, ·)
  | .subscribeAcknowledge id codes => (e.subscribeAcknowledge id codes).map (none, ·)
  | .unsubscribeAcknowledge id => (e.unsubscribeAcknowledge id).map (none, ·)
  | .publishAcknowledge id => (e.publishAcknowledge id).map (none, ·)
  | .publishReceived id => (e.publishReceived id).map (none, ·)
  | .publishRelease id => (e.publishRelease id).map (none, ·)
  | .publishComplete id => (e.publishComplete id).map (none, ·)

/-! ## One reaction after the other -/

theorem foldl_andThen {α : Type} (act : α → Endpoint → Reaction) (r : Reaction) (l : List α) :
    l.foldl (fun r x => r.andThen (act x)) r =
      r.andThen fun e => l.foldl (fun r x => r.andThen (act x)) (still e) := by
  induction l generalizing r with
  | nil => exact (andThen_still r).symm
  | cons x l ih =>
    rw [List.foldl_cons, ih, andThen_assoc]
    congr 1
    funext e
    rw [List.foldl_cons, still_andThen, ih (act x e)]

theorem foldl_later {α : Type} (act : α → Endpoint → Reaction) (r next : Reaction) (l : List α) :
    l.foldl (fun r x => r.andThen (act x)) (r.andThen fun _ => next) =
      r.andThen fun _ => l.foldl (fun r x => r.andThen (act x)) next := by
  rw [foldl_andThen, andThen_assoc]
  congr 1
  funext _
  rw [← foldl_andThen]

/-! ## What single steps come to -/

namespace Request

variable {α β : Type} (r : Reaction)

theorem outcome_pure (a : α) : (pure a : Request α).outcome r = (.ok a, r) := rfl

theorem outcome_bind (m : Request α) (next : α → Request β) :
    (m >>= next).outcome r =
      match m.outcome r with
      | (.ok a, r') => (next a).outcome r'
      | (.error error, r') => (.error error, r') := by
  change (StateT.run (ExceptT.run (m >>= next)) r).run = _
  rcases h : m.outcome r with ⟨_ | a, r'⟩ <;>
  · have ran : StateT.run (ExceptT.run m) r = pure _ := h
    simp only [ExceptT.run_bind, StateT.run_bind, ran]
    rfl

theorem endpoint_bind (next : Endpoint → Request α) :
    (endpoint >>= next).outcome r = (next r.endpoint).outcome r := outcome_bind r endpoint next

theorem change_bind (f : Endpoint → Endpoint) (next : Unit → Request α) :
    (change f >>= next).outcome r = (next ()).outcome { r with endpoint := f r.endpoint } :=
  outcome_bind r (change f) next

theorem outcome_say (p : Packet) : (say p).outcome r = (.ok (), r.send p) := rfl

theorem say_bind (p : Packet) (next : Unit → Request α) :
    (say p >>= next).outcome r = (next ()).outcome (r.send p) := outcome_bind r (say p) next

theorem outcome_happen (next : Endpoint → Reaction) :
    (happen next).outcome r = (.ok (), r.andThen next) := rfl

theorem happen_bind (next : Endpoint → Reaction) (rest : Unit → Request α) :
    (happen next >>= rest).outcome r = (rest ()).outcome (r.andThen next) :=
  outcome_bind r (happen next) rest

theorem outcome_ensure (holds : Bool) (error : ActionError) :
    (ensure holds error).outcome r = (if holds then .ok () else .error error, r) := by
  cases holds <;> rfl

theorem ensure_bind (holds : Bool) (error : ActionError) (next : Unit → Request α) :
    (ensure holds error >>= next).outcome r =
      if holds then (next ()).outcome r else (.error error, r) := by
  rw [outcome_bind, outcome_ensure]
  cases holds <;> rfl

/-- What a decision comes to: a request that is granted goes on as it says, and one that is turned
down leaves everything as it was. -/
def decided (x : Except ActionError (α × Reaction)) : Except ActionError α × Reaction :=
  match x with
  | .ok (a, next) => (.ok a, r.andThen fun _ => next)
  | .error error => (.error error, r)

/-- What comes of a step on the exchanges. -/
def exchanged (x : Except ExchangeError (α × InFlight)) : Except ActionError α × Reaction :=
  match x with
  | .ok (a, f) => (.ok a, { r with endpoint := r.endpoint.withExchanges f })
  | .error error => (.error error.asRefusal, r)

/-- A decision about a request that gives no identifier. -/
def settled (x : Except ActionError Reaction) : Except ActionError Unit × Reaction :=
  decided r (x.map ((), ·))

variable {r}

/-- A step that only looks decides whether the others follow. -/
theorem decided_bind {m : Request α} {next : α → Request β} {x : Except ActionError α}
    {y : α → Except ActionError (β × Reaction)} (looks : m.outcome r = (x, r))
    (follow : ∀ a, x = .ok a → (next a).outcome r = decided r (y a)) :
    (m >>= next).outcome r = decided r (x >>= y) := by
  rw [outcome_bind, looks]
  cases x with
  | error error => rfl
  | ok a => exact follow a rfl

theorem settled_bind {m : Request α} {next : α → Request Unit} {x : Except ActionError α}
    {y : α → Except ActionError Reaction} (looks : m.outcome r = (x, r))
    (follow : ∀ a, x = .ok a → (next a).outcome r = settled r (y a)) :
    (m >>= next).outcome r = settled r (x >>= y) := by
  rw [outcome_bind, looks]
  cases x with
  | error error => rfl
  | ok a => exact follow a rfl

theorem outcome_unnumbered {m : Request Unit} {x : Except ActionError Reaction}
    (h : m.outcome r = settled r x) : m.unnumbered.outcome r = decided r (x.map (none, ·)) := by
  rw [unnumbered, outcome_bind, h]
  cases x <;> rfl

theorem outcome_say_settled (p : Packet) :
    (say p).outcome r = settled r (.ok ((still r.endpoint).send p)) := by
  simp [outcome_say, settled, decided, Except.map, andThen, still, send]

/-! ## Conditions -/

theorem outcome_requireOpen : requireOpen.outcome r = (r.endpoint.requireOpen, r) := by
  simp only [requireOpen, endpoint_bind, outcome_ensure, Endpoint.requireOpen]
  cases r.endpoint.isClosed <;> rfl

theorem outcome_requireConnected : requireConnected.outcome r = (r.endpoint.requireConnected, r) := by
  rw [requireConnected, outcome_bind, outcome_requireOpen, Endpoint.requireConnected]
  cases r.endpoint.requireOpen with
  | error error => rfl
  | ok _ => simp only [endpoint_bind, outcome_ensure]; rfl

theorem outcome_requireExchange (id : PacketId) :
    (requireExchange id).outcome r = (r.endpoint.requireExchange id, r) := by
  rw [requireExchange, outcome_bind, outcome_requireConnected, Endpoint.requireExchange]
  cases r.endpoint.requireConnected with
  | error error => rfl
  | ok _ =>
    simp only [outcome_ensure]
    by_cases zero : id = 0 <;> simp [zero, bind, Except.bind]

/-! ## The decision about CONNECT -/

theorem receive_over {e : Endpoint} (now : Instant) (p : Packet) (gone : e.isClosed = true) :
    e.receive now p = still e := by
  unfold receive
  unfold isClosed Session.isClosing at gone
  split
  · rename_i phase; rw [phase] at gone; cases gone
  · rename_i phase; rw [phase] at gone; cases gone
  · rfl
  · rfl

/-- Once the connection is over the packets that are left make no difference, so it does not matter
that they are not looked at. -/
theorem outcome_replay (now : Instant) (ps : List Packet) :
    (replay now ps).outcome r = (.ok (), ps.foldl (fun r p => r.andThen (receive now p)) r) := by
  induction ps generalizing r with
  | nil => rfl
  | cons p ps ih =>
    rw [replay, endpoint_bind, List.foldl_cons]
    cases gone : r.endpoint.isClosed with
    | false => simp only [Bool.false_eq_true, if_false, happen_bind, ih]
    | true =>
      have left : ∀ ps : List Packet, ps.foldl (fun r p => r.andThen (receive now p)) r = r := by
        intro ps
        induction ps with
        | nil => rfl
        | cons q qs ih => rw [List.foldl_cons, andThen, receive_over now q gone]; simpa [still] using ih
      have one : r.andThen (receive now p) = r := left [p]
      simp only [if_true, outcome_pure, one, left]

theorem outcome_takeDeferred : takeDeferred.outcome r =
    match r.endpoint.handshake with
    | .deciding _ deferred =>
      (.ok deferred, { r with endpoint := { r.endpoint with handshake := .over } })
    | _ => (.error .noPendingConnect, r) := by
  rw [takeDeferred, endpoint_bind]
  cases r.endpoint.handshake <;> rfl

theorem transition_connected {s : Session} (opened : s.isClosing = false) :
    (s.transition .connected).2 = { s with phase := .connected } := by
  unfold Session.isClosing at opened
  unfold Session.transition
  split
  · rename_i late
    cases phase : s.phase <;> rw [phase] at late opened
    · exact absurd late (by decide)
    · rw [← phase]
    · cases opened
    · cases opened
  · rfl

theorem outcome_accept (now : Instant) (present : Bool) :
    (accept now present).outcome r = settled r (r.endpoint.accept now present) := by
  refine settled_bind outcome_requireOpen fun _ passed => ?_
  rw [outcome_bind, outcome_takeDeferred]
  have opened : r.endpoint.session.isClosing = false := by
    unfold Endpoint.requireOpen at passed
    cases gone : r.endpoint.isClosed with
    | false => exact gone
    | true => rw [gone] at passed; cases passed
  cases asked : r.endpoint.handshake with
  | deciding due deferred =>
    have welcomed (w : Session) (p : Packet) :
        ({ endpoint := { r.endpoint with session := w, handshake := .over },
           packets := r.packets.push p, events := r.events } : Reaction) =
          r.andThen fun _ => (still { r.endpoint with session := w, handshake := .over }).send p := by
      simp [andThen, still, send]
    simp only [endpoint_bind, say_bind, changeSession, change_bind, send,
      transition_connected opened, outcome_replay]
    rw [welcomed, foldl_later (fun p e => e.receive now p), Array.foldl_toList]
    rfl
  | _ => rfl

theorem outcome_reject (code : ConnectCode) :
    (reject code).outcome r = settled r (r.endpoint.reject code) := by
  refine settled_bind outcome_requireOpen fun _ _ => ?_
  simp only [endpoint_bind, ensure_bind, outcome_happen]
  cases code.isAccepted <;> cases r.endpoint.isAwaitingDecision <;> rfl

/-! ## Messages -/

theorem outcome_findId {tries : Nat} {id : PacketId}
    (found : InFlight.firstFree (fun id => r.endpoint.session.exchanges.outgoing.contains id) tries
      r.endpoint.session.exchanges.next = some id) :
    (findId tries).outcome r =
      (.ok id, { r with
        endpoint := r.endpoint.withExchanges
          { r.endpoint.session.exchanges with next := InFlight.successor id } }) := by
  induction tries generalizing r with
  | zero => cases found
  | succ tries ih =>
    rw [InFlight.firstFree] at found
    rw [findId, endpoint_bind]
    simp only [changeExchanges, change_bind]
    split at found
    · rename_i taken
      rw [if_pos taken]
      exact ih found
    · rename_i free
      cases found
      rw [if_neg free]
      rfl

/-- While the table has room the search comes to an end, so a request that finds no identifier has not
begun to look for one. -/
theorem outcome_register (message : Publish) :
    (register message).outcome r = exchanged r (r.endpoint.session.exchanges.register message) := by
  unfold register InFlight.register
  by_cases level : message.qos = .atMostOnce
  · simp only [level, if_true]; rfl
  · simp only [level, if_false, allocateId, bind_assoc, endpoint_bind, ensure_bind]
    cases free : r.endpoint.session.exchanges.freeId? with
    | none =>
      have full := InFlight.freeId?_eq_none.1 free
      rw [if_neg (by simpa using full)]
      rfl
    | some id =>
      have room : r.endpoint.session.exchanges.outgoing.size < InFlight.idSpace := by
        by_contra full
        rw [InFlight.freeId?_eq_none.2 (Nat.le_of_not_lt full)] at free
        cases free
      rw [InFlight.freeId?, if_neg (Nat.not_le.2 room)] at free
      rw [if_pos (decide_eq_true room), outcome_bind, outcome_findId free]
      rfl

theorem outcome_publish (topic : String) (payload : Bytes) (qos : Qos) (dup retain : Bool) :
    (publish topic payload qos dup retain).outcome r =
      decided r (r.endpoint.publish topic payload qos dup retain) := by
  refine decided_bind outcome_requireConnected fun _ _ => ?_
  rw [ensure_bind]
  split
  · rw [outcome_bind, outcome_register]
    dsimp only
    cases r.endpoint.session.exchanges.register _ with
    | error error => rfl
    | ok granted =>
      simp only [exchanged, say_bind, outcome_pure]
      simp [decided, andThen, still, send, pure, Except.pure]
  · rfl

theorem outcome_repeatStep (id : PacketId) :
    (repeatStep id).outcome r = exchanged r (r.endpoint.session.exchanges.retransmit id) := by
  unfold repeatStep InFlight.retransmit InFlight.outgoingAt
  rw [ensure_bind]
  by_cases valid : id = 0
  · simp only [valid]; rfl
  · rw [if_pos (bne_iff_ne.2 valid), if_neg valid, endpoint_bind]
    cases r.endpoint.session.exchanges.outgoing[id]? with
    | none => rfl
    | some x => cases x <;> rfl

theorem outcome_retransmit (id : PacketId) :
    (retransmit id).outcome r = settled r (r.endpoint.retransmit id) := by
  refine settled_bind outcome_requireConnected fun _ _ => ?_
  rw [outcome_bind, outcome_repeatStep]
  cases r.endpoint.session.exchanges.retransmit id with
  | error error => rfl
  | ok granted =>
    simp [exchanged, outcome_say, settled, decided, Except.map, andThen, still, send, pure, Except.pure]

theorem outcome_publishAcknowledge (id : PacketId) :
    (publishAcknowledge id).outcome r = settled r (r.endpoint.publishAcknowledge id) :=
  settled_bind (outcome_requireExchange id) fun _ _ => outcome_say_settled (.puback id)

theorem outcome_publishReceived (id : PacketId) :
    (publishReceived id).outcome r = settled r (r.endpoint.publishReceived id) := by
  refine settled_bind (outcome_requireExchange id) fun _ _ => ?_
  simp only [endpoint_bind, ensure_bind]
  cases r.endpoint.session.exchanges.isIncoming id with
  | true => exact outcome_say_settled (.pubrec id)
  | false => rfl

theorem outcome_publishRelease (id : PacketId) :
    (publishRelease id).outcome r = settled r (r.endpoint.publishRelease id) := by
  refine settled_bind (outcome_requireExchange id) fun _ _ => ?_
  rw [endpoint_bind]
  cases r.endpoint.session.exchanges.outgoing[id]? with
  | none => rfl
  | some x =>
    cases x with
    | sent message => rfl
    | received => exact outcome_say_settled (.pubrel id)

theorem outcome_publishComplete (id : PacketId) :
    (publishComplete id).outcome r = settled r (r.endpoint.publishComplete id) := by
  refine settled_bind (outcome_requireExchange id) fun _ _ => ?_
  simp only [endpoint_bind, ensure_bind]
  cases r.endpoint.session.exchanges.isIncoming id with
  | true => rfl
  | false => exact outcome_say_settled (.pubcomp id)

/-! ## Subscriptions -/

theorem outcome_subscribeAcknowledge (id : PacketId) (codes : List SubackCode) :
    (subscribeAcknowledge id codes).outcome r = settled r (r.endpoint.subscribeAcknowledge id codes) := by
  refine settled_bind outcome_requireConnected fun _ _ => ?_
  rw [endpoint_bind]
  cases r.endpoint.subscribes[id]? with
  | none => rfl
  | some expected =>
    simp only [ensure_bind, change_bind, outcome_say]
    by_cases complete : codes.length = expected
    · simp [complete, settled, decided, Except.map, andThen, still, send, pure, Except.pure]
    · simp only [complete]; rfl

/-- The identifier is taken out before it is known whether it waits. If it does not, nothing is taken. -/
theorem outcome_unsubscribeAcknowledge (id : PacketId) :
    (unsubscribeAcknowledge id).outcome r = settled r (r.endpoint.unsubscribeAcknowledge id) := by
  refine settled_bind outcome_requireConnected fun _ _ => ?_
  simp only [takeUnsubscribe, bind_assoc, endpoint_bind, change_bind, pure_bind, ensure_bind, outcome_say]
  cases waiting : r.endpoint.unsubscribes.contains id with
  | true => simp [settled, decided, Except.map, andThen, still, send, pure, Except.pure]
  | false => rw [erase_absent waiting]; rfl

/-! ## Any request -/

/-- **A request is one decision.** -/
theorem outcome_request (now : Instant) (a : Action) :
    (a.request now).outcome r = decided r (r.endpoint.attempt now a) := by
  cases a with
  | accept present => exact outcome_unnumbered (outcome_accept now present)
  | reject code => exact outcome_unnumbered (outcome_reject code)
  | publish topic payload qos dup retain => exact outcome_publish topic payload qos dup retain
  | retransmit id => exact outcome_unnumbered (outcome_retransmit id)
  | subscribeAcknowledge id codes => exact outcome_unnumbered (outcome_subscribeAcknowledge id codes)
  | unsubscribeAcknowledge id => exact outcome_unnumbered (outcome_unsubscribeAcknowledge id)
  | publishAcknowledge id => exact outcome_unnumbered (outcome_publishAcknowledge id)
  | publishReceived id => exact outcome_unnumbered (outcome_publishReceived id)
  | publishRelease id => exact outcome_unnumbered (outcome_publishRelease id)
  | publishComplete id => exact outcome_unnumbered (outcome_publishComplete id)

end Request

/-- What a request comes to if the queues are looked at from where it begins. -/
theorem act_eq (now : Instant) (a : Action) (e : Endpoint) :
    e.act now a =
      match e.attempt now a with
      | .ok (id, r) => (.ok id, r)
      | .error error => (.error error, still e) := by
  rw [act, Request.outcome_request]
  change Request.decided (still e) (e.attempt now a) = _
  cases e.attempt now a with
  | error error => rfl
  | ok granted => simp only [Request.decided, still_andThen]

/-- **A request that is turned down changes nothing.** However far its steps have come: the endpoint is
what it was, with its phase, its session, its watch, its exchanges and next identifier, the decision to be
made and the packets that wait for it, and the SUBSCRIBE and UNSUBSCRIBE packets to be answered; and the
queues hold what they held. So a run goes on as if it had not been made. -/
theorem request_atomic {now : Instant} {a : Action} {r : Reaction} {error : ActionError}
    (turned : ((a.request now).outcome r).1 = .error error) :
    ((a.request now).outcome r).2 = r ∧
    r.endpoint.step now (.action a) = (some (.error error), still r.endpoint) ∧
    ∀ (e : Endpoint) (inputs : List (Instant × Input)), r = e.run inputs →
      e.run (inputs ++ [(now, .action a)]) = r := by
  rw [Request.outcome_request] at turned ⊢
  have fails : r.endpoint.attempt now a = .error error := by
    cases h : r.endpoint.attempt now a with
    | error other => rw [h] at turned; cases turned; rfl
    | ok granted => rw [h] at turned; cases turned
  have step : r.endpoint.step now (.action a) = (some (.error error), still r.endpoint) := by
    simp only [step, act_eq, fails]
  refine ⟨by rw [fails]; rfl, step, ?_⟩
  rintro e inputs rfl
  have last : e.run (inputs ++ [(now, .action a)]) =
      (e.run inputs).andThen fun e => (e.step now (.action a)).2 := by
    simp only [run, List.foldl_append, List.foldl_cons, List.foldl_nil]
  rw [last, andThen, step]
  exact andThen_still (e.run inputs)

/-- A client has asked to unsubscribe, and the answer to it is in the queue behind CONNACK. -/
def unsubscribed : Reaction :=
  (start ⟨none, none, true⟩ 0).run
    [(0, .packet (.connect ⟨.v311, "c", true, 0, none, none, none⟩)),
      (1, .action (.accept false)),
      (2, .packet (.unsubscribe 7 ["t"])),
      (3, .packet (.unsubscribe 8 ["u"])),
      (4, .action (.unsubscribeAcknowledge 7))]

theorem unsubscribed_atomic :
    (((Action.unsubscribeAcknowledge 7).request 5).outcome unsubscribed).1 =
        .error (.unknownUnsubscribe 7) ∧
      (((Action.unsubscribeAcknowledge 7).request 5).outcome unsubscribed).2 = unsubscribed := by
  have turned : (((Action.unsubscribeAcknowledge 7).request 5).outcome unsubscribed).1 =
      .error (.unknownUnsubscribe 7) := by rfl
  exact ⟨turned, (request_atomic turned).1⟩

end MqttLink.Endpoint
