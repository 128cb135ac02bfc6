import Std.Data.TreeMap.Basic
import Std.Data.TreeSet.Basic
import MqttLink.Fault
/-!
# Exchanges in flight

A connection has two identifier spaces. The broker numbers the messages it
sends; the client numbers the ones it sends. The same number may be live in
both at once and means two unrelated exchanges.

* **Outgoing.** A level-1 message waits for PUBACK. A level-2 message waits for
  PUBREC and then, once that has come, for PUBCOMP.
* **Incoming.** Only level 2 needs a record: its identifier is held from the
  first PUBLISH until PUBREL, so that a repeat is not delivered again.

Level 0 leaves no trace in either space.

This is what `QosTracker` has to know; `MqttLink.Roster` has its records. The name
behind a definition is the one that it has there.
-/

namespace MqttLink

/-- An outgoing exchange that the client has not completed. -/
inductive Outgoing where
  /-- The message is on its way; it is kept to be sent again. -/
  | sent (message : Publish)
  /-- The client has the message (level 2) and PUBCOMP is due. -/
  | received
deriving DecidableEq, Repr, Inhabited

/-- Both identifier spaces of a connection (`QosTracker`). -/
structure InFlight where
  outgoing : Std.TreeMap PacketId Outgoing
  incoming : Std.TreeSet PacketId
  /-- Where the search for a free outgoing identifier starts. -/
  next : PacketId

/-- What to do with a message from the client (`InboundDisposition`). -/
inductive Disposition where
  | deliver
  /-- A level-2 message whose identifier is still held. -/
  | duplicate
deriving DecidableEq, Repr

namespace InFlight

/-- The number of identifiers in a space (`PACKET_ID_SPACE`); zero is not one of them. -/
def idSpace : Nat := 65535

/-- No exchange at all. -/
def empty : InFlight := ⟨∅, ∅, 1⟩

/-- The identifier that follows in the cyclic order 1, …, 65535, 1, …. -/
def successor (id : PacketId) : PacketId := if id = 65535 then 1 else id + 1

/-! ## Outgoing messages -/

/-- The first identifier that is not taken, trying `tries` of them from `id` on. -/
def firstFree (taken : PacketId → Bool) : (tries : Nat) → (id : PacketId) → Option PacketId
  | 0, _ => none
  | tries + 1, id => if taken id then firstFree taken tries (successor id) else some id

/-- The identifier that the next outgoing exchange gets, unless all are live
(`allocate_packet_id`). -/
def freeId? (f : InFlight) : Option PacketId :=
  if f.outgoing.size ≥ idSpace then none
  else firstFree (fun id => f.outgoing.contains id) idSpace f.next

/-- Starts an outgoing exchange (`register_outbound`). The message comes back with
the identifier it was given; a level-0 message is given none. -/
def register (f : InFlight) (message : Publish) : Except ExchangeError (Publish × InFlight) :=
  if message.qos = .atMostOnce then .ok ({ message with packetId := none }, f)
  else
    match f.freeId? with
    | none => .error .packetIdsExhausted
    | some id =>
      let numbered := { message with packetId := some id }
      .ok (numbered,
        { f with outgoing := f.outgoing.insert id (.sent numbered), next := successor id })

/-- The outgoing exchange with an identifier (`outbound_entry`). -/
def outgoingAt (f : InFlight) (id : PacketId) : Except ExchangeError Outgoing :=
  if id = 0 then .error .zeroPacketId
  else
    match f.outgoing[id]? with
    | some exchange => .ok exchange
    | none => .error (.unknownPacketId id)

/-- PUBACK completes a level-1 exchange (`on_puback`). -/
def onPuback (f : InFlight) (id : PacketId) : Except ExchangeError InFlight := do
  match ← f.outgoingAt id with
  | .sent message =>
    if message.qos = .atLeastOnce then return { f with outgoing := f.outgoing.erase id }
    else .error (.unexpectedStage id)
  | .received => .error (.unexpectedStage id)

/-- PUBREC says that a level-2 message has arrived (`on_pubrec`); the message need
not be kept. -/
def onPubrec (f : InFlight) (id : PacketId) : Except ExchangeError InFlight := do
  match ← f.outgoingAt id with
  | .sent message =>
    if message.qos = .exactlyOnce then return { f with outgoing := f.outgoing.insert id .received }
    else .error (.unexpectedStage id)
  | .received => .error (.unexpectedStage id)

/-- PUBCOMP completes a level-2 exchange (`on_pubcomp`). -/
def onPubcomp (f : InFlight) (id : PacketId) : Except ExchangeError InFlight := do
  match ← f.outgoingAt id with
  | .sent _ => .error (.unexpectedStage id)
  | .received => return { f with outgoing := f.outgoing.erase id }

/-- The packet that repeats the current step of an outgoing exchange: the message,
marked as a repeat from now on, or PUBREL (`retransmit`). -/
def retransmit (f : InFlight) (id : PacketId) : Except ExchangeError (Packet × InFlight) := do
  match ← f.outgoingAt id with
  | .sent message =>
    let again := { message with dup := true }
    return (.publish again, { f with outgoing := f.outgoing.insert id (.sent again) })
  | .received => return (.pubrel id, f)

/-! ## Incoming messages -/

/-- The identifier of a message that has to have one. -/
def requireId (message : Publish) : Except ExchangeError PacketId :=
  match message.packetId with
  | none => .error .zeroPacketId
  | some id => if id = 0 then .error .zeroPacketId else .ok id

/-- A message from the client (`on_inbound_publish`). The identifier of a level-2
message is held from now on; whether the message is marked as a repeat makes no
difference. -/
def onPublish (f : InFlight) (message : Publish) : Except ExchangeError (Disposition × InFlight) :=
  match message.qos with
  | .atMostOnce => .ok (.deliver, f)
  | .atLeastOnce => do
    let _ ← requireId message
    return (.deliver, f)
  | .exactlyOnce => do
    let id ← requireId message
    if f.incoming.contains id then return (.duplicate, f)
    else return (.deliver, { f with incoming := f.incoming.insert id })

/-- PUBREL completes an incoming level-2 exchange (`on_pubrel`). -/
def onPubrel (f : InFlight) (id : PacketId) : Except ExchangeError InFlight :=
  if id = 0 then .error .zeroPacketId
  else if f.incoming.contains id then .ok { f with incoming := f.incoming.erase id }
  else .error (.unknownPacketId id)

/-- Whether an incoming level-2 exchange waits for PUBREL (`is_inbound_pending`). -/
def isIncoming (f : InFlight) (id : PacketId) : Bool := f.incoming.contains id

/-- Drops every exchange (`clear`). The next identifier stays what it is. -/
def clear (f : InFlight) : InFlight := { f with outgoing := ∅, incoming := ∅ }

/-! ## Looking at one exchange -/

/-- Who chose an exchange's identifier. -/
inductive Direction where
  | inbound
  | outbound
deriving DecidableEq, Repr

/-- How far an exchange has come. -/
inductive Stage where
  /-- Outbound: the message was sent. -/
  | sent
  /-- Outbound: PUBREC has come. -/
  | receivedAck
  /-- Inbound: the message was delivered. -/
  | received
deriving DecidableEq, Repr

/-- One exchange, described in full (`InFlightMessage`). -/
structure Exchange where
  packetId : PacketId
  direction : Direction
  qos : Qos
  stage : Stage
  /-- The message, as long as it may have to be sent again. -/
  message : Option Publish
deriving DecidableEq, Repr

/-- An outgoing exchange, described in full. -/
def Outgoing.describe (id : PacketId) : Outgoing → Exchange
  | .sent message => ⟨id, .outbound, message.qos, .sent, some message⟩
  | .received => ⟨id, .outbound, .exactlyOnce, .receivedAck, none⟩

/-- The exchange with an identifier in one of the spaces (`get`). -/
def get? (f : InFlight) (direction : Direction) (id : PacketId) : Option Exchange :=
  match direction with
  | .outbound => f.outgoing[id]?.map (Outgoing.describe id)
  | .inbound =>
    if f.incoming.contains id then some ⟨id, .inbound, .exactlyOnce, .received, none⟩ else none

end InFlight
end MqttLink
