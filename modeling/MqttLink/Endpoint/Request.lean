import MqttLink.Topic
import MqttLink.Endpoint.Receive
/-!
# How a request is carried out

The application decides about CONNECT, sends messages, and answers what it was
told. Such a request is carried out in steps. A step looks at the endpoint,
changes it, puts a packet or an event into its queue, or turns the request
down. Nothing is taken back then: the endpoint and the queues stay as the steps
before have left them, so each request has to look before it changes anything.
Requests have the names of the functions that the application calls, and their
checks those of the `ensure_` functions.
-/

namespace MqttLink.Endpoint

/-- Steps of a request. They work on an endpoint and its two queues, which may
hold packets and events from before. -/
abbrev Request (α : Type) := ExceptT ActionError (StateM Reaction) α

namespace Request

/-- What comes of a request, and what the endpoint and the queues are then. -/
def outcome {α : Type} (m : Request α) (r : Reaction) : Except ActionError α × Reaction :=
  (m.run.run r).run

/-! ## Single steps -/

/-- Looks at the endpoint. -/
def endpoint : Request Endpoint := return (← get).endpoint

/-- Changes the endpoint. -/
def change (f : Endpoint → Endpoint) : Request Unit :=
  modify fun r => { r with endpoint := f r.endpoint }

/-- Changes the session. -/
def changeSession (f : Session → Session) : Request Unit :=
  change fun e => { e with session := f e.session }

/-- Changes the exchanges. -/
def changeExchanges (f : InFlight → InFlight) : Request Unit :=
  change fun e => e.withExchanges (f e.session.exchanges)

/-- Puts a packet into the queue for the client. -/
def say (p : Packet) : Request Unit := modify (·.send p)

/-- Does something that an endpoint also does for other reasons. -/
def happen (next : Endpoint → Reaction) : Request Unit := modify (·.andThen next)

/-- Turns the request down unless a condition holds. -/
def ensure (holds : Bool) (error : ActionError) : Request Unit :=
  if holds then pure () else throw error

/-! ## Conditions -/

/-- Requests come too late once the connection is over (`ensure_open`). -/
def requireOpen : Request Unit := do
  ensure (!(← endpoint).isClosed) .closed

/-- Most requests need an accepted client (`ensure_connected`). -/
def requireConnected : Request Unit := do
  requireOpen
  ensure (← endpoint).session.isConnected .notConnected

/-- Acknowledgments also need an identifier (`check_ack_id`). -/
def requireExchange (id : PacketId) : Request Unit := do
  requireConnected
  ensure (id != 0) .zeroPacketId

/-! ## The decision about CONNECT -/

/-- Takes the packets that wait for the decision. From here on there is none to
be made. -/
def takeDeferred : Request (Array Packet) := do
  match (← endpoint).handshake with
  | .deciding _ deferred =>
    change fun e => { e with handshake := .over }
    return deferred
  | _ => throw .noPendingConnect

/-- Deals with packets until the connection is over. -/
def replay (now : Instant) : List Packet → Request Unit
  | [] => pure ()
  | p :: rest => do
    if (← endpoint).isClosed then return
    happen (receive now p)
    replay now rest

/-- Lets the client in (`accept`). What it has sent in the meantime is dealt with
as if it came now. A clean session is never present. -/
def accept (now : Instant) (sessionPresent : Bool) : Request Unit := do
  requireOpen
  let deferred ← takeDeferred
  let present := sessionPresent && !(← endpoint).session.cleanSession
  say (.connack present .accepted)
  changeSession fun s => (s.transition .connected).2
  changeSession (·.startWatch now)
  replay now deferred.toList

/-- Turns the client away (`reject`). -/
def reject (code : ConnectCode) : Request Unit := do
  requireOpen
  ensure (!code.isAccepted) .invalidRejectCode
  ensure (← endpoint).isAwaitingDecision .noPendingConnect
  happen (refuse code)

/-! ## Messages -/

/-- Looks for a free identifier, in so many tries. With each of them the next
identifier moves on. -/
def findId : (tries : Nat) → Request PacketId
  | 0 => throw .packetIdsExhausted
  | tries + 1 => do
    let f := (← endpoint).session.exchanges
    changeExchanges fun f => { f with next := InFlight.successor f.next }
    if f.outgoing.contains f.next then findId tries else return f.next

/-- A free identifier (`allocate_packet_id`). -/
def allocateId : Request PacketId := do
  ensure ((← endpoint).session.exchanges.outgoing.size < InFlight.idSpace) .packetIdsExhausted
  findId InFlight.idSpace

/-- Starts an exchange for a message of level 1 or 2, which gets an identifier
(`register_outbound`). -/
def register (message : Publish) : Request Publish := do
  if message.qos = .atMostOnce then return { message with packetId := none }
  let id ← allocateId
  let numbered := { message with packetId := some id }
  changeExchanges fun f => { f with outgoing := f.outgoing.insert id (.sent numbered) }
  return numbered

/-- Sends a message to the client and says which identifier it was given (`publish`). -/
def publish (topic : String) (payload : Bytes) (qos : Qos) (dup retain : Bool) :
    Request (Option PacketId) := do
  requireConnected
  ensure (Topic.isName topic) .invalidTopic
  let message ← register
    { dup := dup && qos.needsId, qos, retain, topic, packetId := none, payload }
  say (.publish message)
  return message.packetId

/-- The packet for the current step of an outgoing exchange. A message is marked
as a repeat from now on. -/
def repeatStep (id : PacketId) : Request Packet := do
  ensure (id != 0) .zeroPacketId
  match (← endpoint).session.exchanges.outgoing[id]? with
  | none => throw (.unknownPacketId id)
  | some (.sent message) =>
    let again := { message with dup := true }
    changeExchanges fun f => { f with outgoing := f.outgoing.insert id (.sent again) }
    return .publish again
  | some .received => return .pubrel id

/-- Sends the current step of an outgoing exchange again (`retransmit`). -/
def retransmit (id : PacketId) : Request Unit := do
  requireConnected
  say (← repeatStep id)

/-- Acknowledges a level-1 message (`publish_acknowledge`). -/
def publishAcknowledge (id : PacketId) : Request Unit := do
  requireExchange id
  say (.puback id)

/-- Acknowledges a level-2 message that waits for PUBREL (`publish_received`). -/
def publishReceived (id : PacketId) : Request Unit := do
  requireExchange id
  ensure ((← endpoint).session.exchanges.isIncoming id) (.unknownPacketId id)
  say (.pubrec id)

/-- Releases a level-2 message that the client has acknowledged (`publish_release`). -/
def publishRelease (id : PacketId) : Request Unit := do
  requireExchange id
  match (← endpoint).session.exchanges.outgoing[id]? with
  | some .received => say (.pubrel id)
  | some (.sent _) => throw (.unexpectedStage id)
  | none => throw (.unknownPacketId id)

/-- Completes a level-2 message that the client has released (`publish_complete`). -/
def publishComplete (id : PacketId) : Request Unit := do
  requireExchange id
  ensure (!(← endpoint).session.exchanges.isIncoming id) (.unexpectedStage id)
  say (.pubcomp id)

/-! ## Subscriptions -/

/-- Answers SUBSCRIBE, with one code for each of its filters (`subscribe_acknowledge`). -/
def subscribeAcknowledge (id : PacketId) (codes : List SubackCode) : Request Unit := do
  requireConnected
  match (← endpoint).subscribes[id]? with
  | none => throw (.unknownSubscribe id)
  | some expected =>
    ensure (codes.length = expected) (.returnCodeCountMismatch expected codes.length)
    change fun e => { e with subscribes := e.subscribes.erase id }
    say (.suback id codes)

/-- Takes an UNSUBSCRIBE out of those that wait. Says whether it was one. -/
def takeUnsubscribe (id : PacketId) : Request Bool := do
  let waiting := (← endpoint).unsubscribes.contains id
  change fun e => { e with unsubscribes := e.unsubscribes.erase id }
  return waiting

/-- Answers UNSUBSCRIBE (`unsubscribe_acknowledge`). -/
def unsubscribeAcknowledge (id : PacketId) : Request Unit := do
  requireConnected
  ensure (← takeUnsubscribe id) (.unknownUnsubscribe id)
  say (.unsuback id)

end Request
end MqttLink.Endpoint
