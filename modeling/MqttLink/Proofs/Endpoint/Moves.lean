import MqttLink.Proofs.Endpoint.Attempt
/-!
# The moves of an endpoint

Everything that an endpoint can do, as a relation. `Move now e d answer r` says that the endpoint `e`
answers the deed `d` with `answer` and reacts with `r`; there is one constructor for each way in which
that can come about, with all it asks for. `Inversion` proves that an endpoint never does anything
else, so a property of all runs needs a look at the constructors only.

An accept that goes through is the one input that is not a single deed: first the client is let in,
then the packets that were held back follow one by one.
-/

namespace MqttLink.Endpoint

open Reaction

/-! ## Deeds -/

/-- One indivisible thing that happens to an endpoint. -/
inductive Deed where
  /-- An input that is dealt with in one go. -/
  | input (input : Input)
  /-- The beginning of an accept that goes through. -/
  | welcome (sessionPresent : Bool)
deriving DecidableEq

/-- What comes of a deed. -/
def perform (now : Instant) (d : Deed) (e : Endpoint) : Option Answer × Reaction :=
  match d with
  | .input input => e.step now input
  | .welcome sessionPresent => (some (.ok none), e.welcome now sessionPresent)

/-- Whether an accept goes through. -/
def canAccept (e : Endpoint) : Bool := !e.isClosed && e.isAwaitingDecision

/-- An accept that goes through is never a deed of its own. -/
def Possible (e : Endpoint) : Deed → Prop
  | .welcome _ => e.canAccept = true
  | .input (.action (.accept _)) => e.canAccept = false
  | .input _ => True

/-! ## A packet from an accepted client -/

/-- The endpoint after it has taken note that the client is alive. -/
def touched (now : Instant) (e : Endpoint) : Endpoint := { e with session := e.session.touch now }

/-- What an endpoint sends on its own account. -/
def reply (e : Endpoint) (ack : Packet) : Array Packet := if e.policy.autoAck then #[ack] else #[]

/-- The packets that an accepted client may send, and what comes of them. -/
inductive Served (e : Endpoint) : Packet → Reaction → Prop where
  | levelZero {m : Publish} (level : m.qos = .atMostOnce) :
    Served e (.publish m) ⟨e, #[], #[.publishReceived m]⟩
  | levelOne {m : Publish} {id : PacketId} (level : m.qos = .atLeastOnce)
    (named : m.packetId = some id) (valid : id ≠ 0) :
    Served e (.publish m) ⟨e, e.reply (.puback id), #[.publishReceived m]⟩
  | levelTwo {m : Publish} {id : PacketId} {f : InFlight} (level : m.qos = .exactlyOnce)
    (named : m.packetId = some id) (valid : id ≠ 0)
    (unheld : e.session.exchanges.incoming.contains id = false)
    (held : f = { e.session.exchanges with incoming := e.session.exchanges.incoming.insert id }) :
    Served e (.publish m) ⟨e.withExchanges f, e.reply (.pubrec id), #[.publishReceived m]⟩
  | again {m : Publish} {id : PacketId} (level : m.qos = .exactlyOnce)
    (named : m.packetId = some id) (valid : id ≠ 0)
    (held : e.session.exchanges.incoming.contains id = true) :
    Served e (.publish m) ⟨e, #[.pubrec id], #[]⟩
  | puback {id : PacketId} {f : InFlight} (fits : e.session.exchanges.onPuback id = .ok f) :
    Served e (.puback id) ⟨e.withExchanges f, #[], #[.publishAcknowledged id]⟩
  | pubrec {id : PacketId} {f : InFlight} (fits : e.session.exchanges.onPubrec id = .ok f) :
    Served e (.pubrec id) ⟨e.withExchanges f, e.reply (.pubrel id), #[.publishReceivedAck id]⟩
  | pubrel {id : PacketId} {f : InFlight} (fits : e.session.exchanges.onPubrel id = .ok f) :
    Served e (.pubrel id) ⟨e.withExchanges f, e.reply (.pubcomp id), #[.publishReleased id]⟩
  | pubcomp {id : PacketId} {f : InFlight} (fits : e.session.exchanges.onPubcomp id = .ok f) :
    Served e (.pubcomp id) ⟨e.withExchanges f, #[], #[.publishCompleted id]⟩
  | subscribe {id : PacketId} {subs : List Subscription} (valid : id ≠ 0)
    (unused : e.subscribes.contains id = false) :
    Served e (.subscribe id subs)
      ⟨{ e with subscribes := e.subscribes.insert id subs.length }, #[], #[.subscribeRequest id subs]⟩
  | unsubscribe {id : PacketId} {filters : List String} (valid : id ≠ 0)
    (unused : e.unsubscribes.contains id = false) :
    Served e (.unsubscribe id filters)
      ⟨{ e with unsubscribes := e.unsubscribes.insert id }, #[], #[.unsubscribeRequest id filters]⟩
  | pingreq : Served e .pingreq ⟨e, #[.pingresp], #[.ping]⟩

/-- The packets with which an accepted client breaks the protocol. -/
inductive Violates (e : Endpoint) : Packet → ProtocolError → Prop where
  | connect (c : Connect) : Violates e (.connect c) .duplicateConnect
  | publish {m : Publish} {error : ExchangeError}
    (fails : e.session.exchanges.onPublish m = .error error) :
    Violates e (.publish m) (error.asViolation .publish)
  | puback {id : PacketId} {error : ExchangeError}
    (fails : e.session.exchanges.onPuback id = .error error) :
    Violates e (.puback id) (error.asViolation .puback)
  | pubrec {id : PacketId} {error : ExchangeError}
    (fails : e.session.exchanges.onPubrec id = .error error) :
    Violates e (.pubrec id) (error.asViolation .pubrec)
  | pubrel {id : PacketId} {error : ExchangeError}
    (fails : e.session.exchanges.onPubrel id = .error error) :
    Violates e (.pubrel id) (error.asViolation .pubrel)
  | pubcomp {id : PacketId} {error : ExchangeError}
    (fails : e.session.exchanges.onPubcomp id = .error error) :
    Violates e (.pubcomp id) (error.asViolation .pubcomp)
  | subscribeZero (subs : List Subscription) :
    Violates e (.subscribe 0 subs) (.zeroPacketId .subscribe)
  | subscribeAgain {id : PacketId} {subs : List Subscription} (valid : id ≠ 0)
    (used : e.subscribes.contains id = true) :
    Violates e (.subscribe id subs) (.packetIdInUse .subscribe id)
  | unsubscribeZero (filters : List String) :
    Violates e (.unsubscribe 0 filters) (.zeroPacketId .unsubscribe)
  | unsubscribeAgain {id : PacketId} {filters : List String} (valid : id ≠ 0)
    (used : e.unsubscribes.contains id = true) :
    Violates e (.unsubscribe id filters) (.packetIdInUse .unsubscribe id)
  | unexpected {p : Packet} (kind : p.kind ∈ [.connack, .suback, .unsuback, .pingresp]) :
    Violates e p (.unexpectedPacket p.kind)

/-! ## A request that is granted -/

/-- A message as the application hands it in. -/
def draft (topic : String) (payload : Bytes) (qos : Qos) (dup retain : Bool) : Publish :=
  { dup := dup && qos.needsId, qos, retain, topic, packetId := none, payload }

/-- The requests that are granted once the client is accepted, and what comes of them. -/
inductive Granted (e : Endpoint) : Action → Option PacketId → Reaction → Prop where
  | publish {topic : String} {payload : Bytes} {qos : Qos} {dup retain : Bool} {m : Publish}
    {f : InFlight} (name : Topic.isName topic = true)
    (fits : e.session.exchanges.register (draft topic payload qos dup retain) = .ok (m, f)) :
    Granted e (.publish topic payload qos dup retain) m.packetId
      ⟨e.withExchanges f, #[.publish m], #[]⟩
  | retransmit {id : PacketId} {p : Packet} {f : InFlight}
    (fits : e.session.exchanges.retransmit id = .ok (p, f)) :
    Granted e (.retransmit id) none ⟨e.withExchanges f, #[p], #[]⟩
  | subscribeAcknowledge {id : PacketId} {codes : List SubackCode}
    (due : e.subscribes[id]? = some codes.length) :
    Granted e (.subscribeAcknowledge id codes) none
      ⟨{ e with subscribes := e.subscribes.erase id }, #[.suback id codes], #[]⟩
  | unsubscribeAcknowledge {id : PacketId} (due : e.unsubscribes.contains id = true) :
    Granted e (.unsubscribeAcknowledge id) none
      ⟨{ e with unsubscribes := e.unsubscribes.erase id }, #[.unsuback id], #[]⟩
  | publishAcknowledge {id : PacketId} (valid : id ≠ 0) :
    Granted e (.publishAcknowledge id) none ⟨e, #[.puback id], #[]⟩
  | publishReceived {id : PacketId} (valid : id ≠ 0)
    (held : e.session.exchanges.isIncoming id = true) :
    Granted e (.publishReceived id) none ⟨e, #[.pubrec id], #[]⟩
  | publishRelease {id : PacketId} (valid : id ≠ 0)
    (received : e.session.exchanges.outgoing[id]? = some .received) :
    Granted e (.publishRelease id) none ⟨e, #[.pubrel id], #[]⟩
  | publishComplete {id : PacketId} (valid : id ≠ 0)
    (unheld : e.session.exchanges.isIncoming id = false) :
    Granted e (.publishComplete id) none ⟨e, #[.pubcomp id], #[]⟩

/-! ## Ways out -/

/-- The inputs that end a connection without an answer to CONNECT, each with the reason. -/
inductive Ends (now : Instant) (e : Endpoint) : Input → CloseReason → Prop where
  | early {p : Packet} (phase : e.session.phase = .awaitingConnect)
    (undecided : e.isAwaitingDecision = false) (other : ∀ c, p ≠ .connect c) :
    Ends now e (.packet p) (.protocolError (.expectedConnect p.kind))
  | violation {p : Packet} {error : ProtocolError} (phase : e.session.phase = .connected)
    (broken : Violates (e.touched now) p error) : Ends now e (.packet p) (.protocolError error)
  | disconnect (phase : e.session.phase = .connected) : Ends now e (.packet .disconnect) .graceful
  | decodeError {error : DecodeError}
    (known : (∀ level, error ≠ .unsupportedProtocolVersion level) ∨
      e.session.phase ≠ .awaitingConnect ∨ e.isAwaitingDecision = true) :
    Ends now e (.decodeError error) (.decodeError error)
  | transportClosed : Ends now e .transportClosed .transportClosed
  | noConnect {due : Option Instant} (phase : e.session.phase = .awaitingConnect)
    (waiting : e.handshake = .waiting due) (late : isDue due now = true) :
    Ends now e .timeout .timeout
  | silent (phase : e.session.phase = .connected) (late : (e.session.pollWatch now).1 = true) :
    Ends now e .timeout .keepAliveExpired
  | close : Ends now e .close .applicationClosed

/-- The inputs that refuse a client, with the answer and the code, and the endpoint that is closed
then: the one that refuses a CONNECT out of hand has already taken over what it says. -/
inductive Refuses (now : Instant) (e : Endpoint) :
    Input → Option Answer → ConnectCode → Endpoint → Prop where
  | nameless {c : Connect} (phase : e.session.phase = .awaitingConnect)
    (undecided : e.isAwaitingDecision = false)
    (lasting : (c.clientId.isEmpty && !c.cleanSession) = true) :
    Refuses now e (.packet (.connect c)) none .identifierRejected
      { e with session := e.session.populate c }
  | level {level : UInt8} (phase : e.session.phase = .awaitingConnect)
    (undecided : e.isAwaitingDecision = false) :
    Refuses now e (.decodeError (.unsupportedProtocolVersion level)) none
      .unacceptableProtocolVersion e
  | reject {code : ConnectCode} (failure : code.isAccepted = false)
    (asked : e.isAwaitingDecision = true) :
    Refuses now e (.action (.reject code)) (some (.ok none)) code e
  | undecided {due : Option Instant} {deferred : Array Packet}
    (phase : e.session.phase = .awaitingConnect) (asked : e.handshake = .deciding due deferred)
    (late : isDue due now = true) :
    Refuses now e .timeout none .serverUnavailable e

/-! ## All moves -/

/-- What is answered once the connection is over. -/
def tooLate : Input → Option Answer
  | .action _ => some (.error .closed)
  | _ => none

/-- Everything that an endpoint does. -/
inductive Move (now : Instant) (e : Endpoint) : Deed → Option Answer → Reaction → Prop where
  | ignored {input : Input} (gone : e.isClosed = true) :
    Move now e (.input input) (tooLate input) (still e)
  | asked {c : Connect} (phase : e.session.phase = .awaitingConnect)
    (undecided : e.isAwaitingDecision = false)
    (named : (c.clientId.isEmpty && !c.cleanSession) = false) :
    Move now e (.input (.packet (.connect c))) none
      ⟨{ e with
          session := e.session.populate c
          handshake := .deciding (e.policy.acceptTimeout.map (now + ·)) #[] },
        #[], #[.connectRequest c]⟩
  | deferred {p : Packet} {due : Option Instant} {held : Array Packet}
    (phase : e.session.phase = .awaitingConnect) (asked : e.handshake = .deciding due held) :
    Move now e (.input (.packet p)) none
      ⟨{ e with handshake := .deciding due (held.push p) }, #[], #[]⟩
  | welcomed {sessionPresent : Bool} (able : e.canAccept = true) :
    Move now e (.welcome sessionPresent) (some (.ok none))
      ⟨{ e with
          session := { e.session with phase := .connected }.startWatch now
          handshake := .over },
        #[.connack (sessionPresent && !e.session.cleanSession) .accepted], #[]⟩
  | idle (opened : e.isClosed = false) : Move now e (.input .timeout) none (still e)
  | served {p : Packet} {r : Reaction} (phase : e.session.phase = .connected)
    (fits : Served (e.touched now) p r) : Move now e (.input (.packet p)) none r
  | granted {a : Action} {id : Option PacketId} {r : Reaction}
    (phase : e.session.phase = .connected) (fits : Granted e a id r) :
    Move now e (.input (.action a)) (some (.ok id)) r
  | denied {a : Action} {error : ActionError} (opened : e.isClosed = false)
    (fails : e.attempt now a = .error error) :
    Move now e (.input (.action a)) (some (.error error)) (still e)
  | refused {input : Input} {answer : Option Answer} {code : ConnectCode} {e' : Endpoint}
    (opened : e.isClosed = false) (refuses : Refuses now e input answer code e') :
    Move now e (.input input) answer
      ⟨e'.ended, #[.connack false code], #[.closed (.rejected code) (e'.releasedWill (.rejected code))]⟩
  | ended {input : Input} {reason : CloseReason} (opened : e.isClosed = false)
    (ends : Ends now e input reason) :
    Move now e (.input input) none ⟨e.ended, #[], #[.closed reason (e.releasedWill reason)]⟩

end MqttLink.Endpoint
