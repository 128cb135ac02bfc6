import MqttLink.InFlight
/-!
# Exchanges in flight, kept as records

`InFlight` says what a connection has to know of its exchanges. Here they are kept in full: every
exchange is a record with its identifier, direction, level, stage and, as long as it may have to be
sent again, its message. Each operation reads the fields it needs and trusts no other, as those of
`QosTracker` do.

An operation may fail. What it wrote before it failed stays written.
-/

namespace MqttLink

open InFlight (Direction Exchange Stage)

/-- The exchanges of a connection, in both identifier spaces (`QosTracker`). -/
structure Roster where
  outbound : Std.TreeMap PacketId Exchange
  inbound : Std.TreeMap PacketId Exchange
  /-- Where the search for a free outbound identifier starts. -/
  next : PacketId

namespace Roster

/-- No exchange at all. -/
def empty : Roster := ⟨∅, ∅, 1⟩

/-- A step on the roster. It may fail, and it may not have come to an end yet: `none`. -/
abbrev Step (α : Type) := ExceptT ExchangeError (StateT Roster Option) α

/-- A step that has not come to an end. -/
def unfinished {α : Type} : Step α := monadLift (none : Option α)

/-- What comes of a step, and the roster after it. -/
def Step.outcome {α : Type} (x : Step α) (r : Roster) :
    Option (Except ExchangeError α × Roster) := x.run.run r

/-! ## Outbound exchanges -/

/-- Takes one identifier after the other, in cyclic order, until one is free. Nothing bounds the
search but the roster itself, so it is told how many turns it may take. -/
def findId : (turns : Nat) → Step PacketId
  | 0 => unfinished
  | turns + 1 => do
    let r ← get
    set { r with next := InFlight.successor r.next }
    if r.outbound.contains r.next then findId turns else return r.next

/-- A free identifier, unless the table is full (`allocate_packet_id`). -/
def allocateId (turns : Nat) : Step PacketId := do
  if InFlight.idSpace ≤ (← get).outbound.size then throw .packetIdsExhausted
  findId turns

/-- Starts an outbound exchange (`register_outbound`). The message comes back with the identifier it
was given; a level-0 message is given none and leaves no record. -/
def register (turns : Nat) (message : Publish) : Step Publish := do
  if message.qos = .atMostOnce then return { message with packetId := none }
  let id ← allocateId turns
  let numbered := { message with packetId := some id }
  modify fun r =>
    { r with outbound := r.outbound.insert id ⟨id, .outbound, message.qos, .sent, some numbered⟩ }
  return numbered

/-- The record of an outbound exchange (`outbound_entry`). -/
def entry (id : PacketId) : Step Exchange := do
  if id = 0 then throw .zeroPacketId
  match (← get).outbound[id]? with
  | some x => return x
  | none => throw (.unknownPacketId id)

/-- Ends an outbound exchange of the level and at the stage given (`complete_outbound`). -/
def complete (id : PacketId) (level : Qos) (stage : Stage) : Step Unit := do
  let x ← entry id
  if x.qos ≠ level ∨ x.stage ≠ stage then throw (.unexpectedStage id)
  modify fun r => { r with outbound := r.outbound.erase id }

/-- PUBACK completes a level-1 exchange (`on_puback`). -/
def onPuback (id : PacketId) : Step Unit := complete id .atLeastOnce .sent

/-- PUBREC says that a level-2 message has arrived (`on_pubrec`); from here only PUBREL can be sent
again. -/
def onPubrec (id : PacketId) : Step Unit := do
  let x ← entry id
  if x.qos ≠ .exactlyOnce ∨ x.stage ≠ .sent then throw (.unexpectedStage id)
  modify fun r =>
    { r with outbound := r.outbound.insert id { x with stage := .receivedAck, message := none } }

/-- PUBCOMP completes a level-2 exchange (`on_pubcomp`). -/
def onPubcomp (id : PacketId) : Step Unit := complete id .exactlyOnce .receivedAck

/-- The packet that repeats the current step of an outbound exchange: its message, marked as a
repeat from now on, or PUBREL (`retransmit`). A record at neither of these points has nothing to
repeat. -/
def retransmit (id : PacketId) : Step Packet := do
  let x ← entry id
  match x.stage, x.message with
  | .sent, some message =>
    let again := { message with dup := true }
    modify fun r => { r with outbound := r.outbound.insert id { x with message := some again } }
    return .publish again
  | .receivedAck, _ => return .pubrel id
  | _, _ => throw (.unexpectedStage id)

/-! ## Inbound exchanges -/

/-- A message from the client (`on_inbound_publish`). The identifier of a level-2 message is kept
from now on; whether the message is marked as a repeat makes no difference. -/
def onPublish (message : Publish) : Step Disposition :=
  match message.qos with
  | .atMostOnce => return .deliver
  | .atLeastOnce => do
    let _ ← InFlight.requireId message
    return .deliver
  | .exactlyOnce => do
    let id ← InFlight.requireId message
    if (← get).inbound.contains id then return .duplicate
    modify fun r =>
      { r with inbound := r.inbound.insert id ⟨id, .inbound, .exactlyOnce, .received, none⟩ }
    return .deliver

/-- PUBREL completes an inbound level-2 exchange (`on_pubrel`). -/
def onPubrel (id : PacketId) : Step Unit := do
  if id = 0 then throw .zeroPacketId
  if (← get).inbound.contains id then modify fun r => { r with inbound := r.inbound.erase id }
  else throw (.unknownPacketId id)

/-! ## Looking at the roster -/

/-- The record with an identifier in one of the spaces (`get`). -/
def get? (r : Roster) (direction : Direction) (id : PacketId) : Option Exchange :=
  match direction with
  | .inbound => r.inbound[id]?
  | .outbound => r.outbound[id]?

/-- Drops every exchange (`clear`). The next identifier stays what it is. -/
def clear (r : Roster) : Roster := { r with outbound := ∅, inbound := ∅ }

/-! ## Operations -/

/-- Everything that can be asked of a roster. -/
inductive Operation where
  | register (message : Publish)
  | puback (id : PacketId)
  | pubrec (id : PacketId)
  | pubcomp (id : PacketId)
  | retransmit (id : PacketId)
  | publish (message : Publish)
  | pubrel (id : PacketId)
  /-- Does an inbound exchange wait for PUBREL? -/
  | isIncoming (id : PacketId)
  | get (direction : Direction) (id : PacketId)
  /-- How many exchanges are there in a space? -/
  | size (direction : Direction)
  | clear
deriving DecidableEq, Repr

/-- What an operation that went through answers. -/
inductive Report where
  /-- The message as it is to be sent. -/
  | numbered (message : Publish)
  | done
  | again (packet : Packet)
  | taken (disposition : Disposition)
  | held (isHeld : Bool)
  | exchange (found : Option Exchange)
  | count (exchanges : Nat)
deriving DecidableEq, Repr

/-- The steps of an operation. A search may take so many turns. -/
def Operation.steps (turns : Nat) : Operation → Step Report
  | register message => return .numbered (← Roster.register turns message)
  | puback id => do onPuback id; return .done
  | pubrec id => do onPubrec id; return .done
  | pubcomp id => do onPubcomp id; return .done
  | retransmit id => return .again (← Roster.retransmit id)
  | publish message => return .taken (← onPublish message)
  | pubrel id => do onPubrel id; return .done
  | isIncoming id => return .held ((← MonadState.get).inbound.contains id)
  | get direction id => return .exchange ((← MonadState.get).get? direction id)
  | size .inbound => return .count (← MonadState.get).inbound.size
  | size .outbound => return .count (← MonadState.get).outbound.size
  | clear => do modify Roster.clear; return .done

/-- What an operation answers, and the roster after it; `none` as long as a search has not ended
after so many turns. -/
def perform (r : Roster) (turns : Nat) (op : Operation) :
    Option (Except ExchangeError Report × Roster) :=
  (op.steps turns).outcome r

end Roster
end MqttLink
