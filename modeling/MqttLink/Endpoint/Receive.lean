import MqttLink.Endpoint.Basic
/-!
# Packets from the client

The first packet has to be CONNECT, which the application is asked about; what
comes behind it waits for the decision. Every packet of an accepted client
counts as activity, whatever comes of it. A packet that does not fit ends the
connection, and nothing is sent or told on its account but that. `receive` is
`handle_packet`, and each `handle_` function that it calls has its definition here.
-/

namespace MqttLink.Endpoint

open Reaction

/-! ## CONNECT -/

/-- The first CONNECT (`handle_connect`). A client without a name cannot ask for a
lasting session. -/
def onConnect (now : Instant) (c : Connect) (e : Endpoint) : Reaction :=
  let e := { e with session := e.session.populate c }
  if c.clientId.isEmpty && !c.cleanSession then e.refuse .identifierRejected
  else
    let due := e.policy.acceptTimeout.map (now + ·)
    (still { e with handshake := .deciding due #[] }).tell (.connectRequest c)

/-! ## Messages and their acknowledgments -/

/-- Takes over the exchanges after a step. -/
def withExchanges (e : Endpoint) (exchanges : InFlight) : Endpoint :=
  { e with session := { e.session with exchanges } }

/-- Sends an acknowledgment if the endpoint does so on its own. -/
def acknowledge (ack : Packet) (r : Reaction) : Reaction :=
  if r.endpoint.policy.autoAck then r.send ack else r

/-- A message from the client (`handle_publish`). A repeat of a level-2 message is
acknowledged once more and goes no further. -/
def onPublish (message : Publish) (e : Endpoint) : Reaction :=
  match e.session.exchanges.onPublish message with
  | .error error => e.violation (error.asViolation .publish)
  | .ok (disposition, exchanges) =>
    let id := message.packetId.getD 0
    let after := still (e.withExchanges exchanges)
    match disposition with
    | .duplicate => after.send (.pubrec id)
    | .deliver =>
      let told := after.tell (.publishReceived message)
      match message.qos with
      | .atMostOnce => told
      | .atLeastOnce => acknowledge (.puback id) told
      | .exactlyOnce => acknowledge (.pubrec id) told

/-- PUBACK from the client (`handle_puback`). -/
def onPuback (id : PacketId) (e : Endpoint) : Reaction :=
  match e.session.exchanges.onPuback id with
  | .error error => e.violation (error.asViolation .puback)
  | .ok exchanges => (still (e.withExchanges exchanges)).tell (.publishAcknowledged id)

/-- PUBREC from the client (`handle_pubrec`). -/
def onPubrec (id : PacketId) (e : Endpoint) : Reaction :=
  match e.session.exchanges.onPubrec id with
  | .error error => e.violation (error.asViolation .pubrec)
  | .ok exchanges =>
    acknowledge (.pubrel id) ((still (e.withExchanges exchanges)).tell (.publishReceivedAck id))

/-- PUBREL from the client (`handle_pubrel`). -/
def onPubrel (id : PacketId) (e : Endpoint) : Reaction :=
  match e.session.exchanges.onPubrel id with
  | .error error => e.violation (error.asViolation .pubrel)
  | .ok exchanges =>
    acknowledge (.pubcomp id) ((still (e.withExchanges exchanges)).tell (.publishReleased id))

/-- PUBCOMP from the client (`handle_pubcomp`). -/
def onPubcomp (id : PacketId) (e : Endpoint) : Reaction :=
  match e.session.exchanges.onPubcomp id with
  | .error error => e.violation (error.asViolation .pubcomp)
  | .ok exchanges => (still (e.withExchanges exchanges)).tell (.publishCompleted id)

/-! ## Subscriptions -/

/-- SUBSCRIBE waits for the application's answer under its identifier
(`handle_subscribe`). -/
def onSubscribe (id : PacketId) (subscriptions : List Subscription) (e : Endpoint) : Reaction :=
  if id = 0 then e.violation (.zeroPacketId .subscribe)
  else if e.subscribes.contains id then e.violation (.packetIdInUse .subscribe id)
  else
    (still { e with subscribes := e.subscribes.insert id subscriptions.length }).tell
      (.subscribeRequest id subscriptions)

/-- UNSUBSCRIBE waits for the application's answer under its identifier
(`handle_unsubscribe`). -/
def onUnsubscribe (id : PacketId) (filters : List String) (e : Endpoint) : Reaction :=
  if id = 0 then e.violation (.zeroPacketId .unsubscribe)
  else if e.unsubscribes.contains id then e.violation (.packetIdInUse .unsubscribe id)
  else
    (still { e with unsubscribes := e.unsubscribes.insert id }).tell
      (.unsubscribeRequest id filters)

/-! ## Any packet -/

/-- A packet from an accepted client (`dispatch`). -/
def dispatch (p : Packet) (e : Endpoint) : Reaction :=
  match p with
  | .connect _ => e.violation .duplicateConnect
  | .publish message => e.onPublish message
  | .puback id => e.onPuback id
  | .pubrec id => e.onPubrec id
  | .pubrel id => e.onPubrel id
  | .pubcomp id => e.onPubcomp id
  | .subscribe id subscriptions => e.onSubscribe id subscriptions
  | .unsubscribe id filters => e.onUnsubscribe id filters
  | .pingreq => ((still e).send .pingresp).tell .ping
  | .disconnect => e.closeWith .graceful
  | .connack _ _ | .suback _ _ | .unsuback _ | .pingresp => e.violation (.unexpectedPacket p.kind)

/-- A packet from the client, in any phase (`handle_packet`). -/
def receive (now : Instant) (p : Packet) (e : Endpoint) : Reaction :=
  match e.session.phase with
  | .awaitingConnect =>
    match e.handshake with
    | .deciding due deferred => still { e with handshake := .deciding due (deferred.push p) }
    | _ =>
      match p with
      | .connect c => e.onConnect now c
      | _ => e.violation (.expectedConnect p.kind)
  | .connected => { e with session := e.session.touch now }.dispatch p
  | .closing | .closed => still e

end MqttLink.Endpoint
