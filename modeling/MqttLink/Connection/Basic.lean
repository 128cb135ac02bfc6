import MqttLink.Connection.Pipe
import MqttLink.Wire.Encode
import MqttLink.Wire.Decode
/-!
# A connection

A connection runs one endpoint between a client's byte stream and the
application. It reads bytes into a buffer and hands the packets in them to the
endpoint, writes the endpoint's packets, and passes its events on.

It never waits for the application. Events that the channel has no room for go
to a backlog, and while the backlog is as long as the channel is large nothing
is read and no packet is taken out of the buffer. The same holds while CONNECT
waits for its decision, so nothing ever piles up behind it.

This module holds the state and the two things that every turn is made of:
working off the buffer (`process_read_buf`), and the flush that ends the turn (`flush`).
-/

namespace MqttLink

/-- Why a connection failed (`ConnectionError`). -/
inductive Failure where
  /-- The client no longer takes what is written to it. -/
  | brokenPipe
  | encode (error : EncodeError)
deriving DecidableEq, Repr

/-- How to set up a connection (`ConnectionConfig`). -/
structure ConnectionSetup where
  policy : Policy
  /-- The largest packet body that the client may send, in bytes. -/
  maxPacketSize : Nat
  /-- How many events may wait for the application. -/
  eventCapacity : Nat

/-- One connection and everything it touches. -/
structure Connection where
  now : Instant
  pipe : Pipe
  channel : Channel
  desk : Desk
  /-- Set by the broker's signal to shut down. -/
  shutdownDue : Bool
  endpoint : Endpoint
  /-- The largest packet body that is read. -/
  limit : Nat
  /-- Bytes that have been read and belong to no packet yet. -/
  buffer : Bytes
  /-- Packets to be written at the next flush. -/
  unsent : Array Packet
  /-- Events that the channel has had no room for, oldest first. -/
  backlog : List Event
  /-- Cleared once the application is found to have dropped its end of the channel. -/
  delivering : Bool
  /-- Cleared once every handle is found to be dropped. -/
  serving : Bool
  /-- Cleared by the signal to shut down. -/
  watching : Bool
  /-- The first thing that went wrong. -/
  failure : Option Failure
  /-- Set once the connection has nothing more to do. -/
  finished : Bool

namespace Connection

/-- A connection that has just been opened (`new`). -/
def start (setup : ConnectionSetup) : Connection where
  now := 0
  pipe := .fresh
  channel := .fresh setup.eventCapacity
  desk := .fresh
  shutdownDue := false
  endpoint := .start setup.policy 0
  limit := Wire.effectiveLimit setup.maxPacketSize
  buffer := []
  unsent := #[]
  backlog := []
  delivering := true
  serving := true
  watching := true
  failure := none
  finished := false

/-- Takes over what has become of the endpoint, and queues what it wants said
(`collect_events`). -/
def absorb (c : Connection) (r : Reaction) : Connection :=
  { c with
    endpoint := r.endpoint
    unsent := c.unsent ++ r.packets
    backlog := if c.delivering then c.backlog ++ r.events.toList else c.backlog }

/-- Whether a packet may be read now: the connection is open, no decision about
CONNECT is due, and the application keeps up. -/
def isReading (c : Connection) : Bool :=
  !c.endpoint.isClosed && !c.endpoint.isAwaitingDecision && c.backlog.length < c.channel.capacity

/-! ## Working off the buffer -/

/-- Hands the packets in the buffer to the endpoint, as long as packets may be
read (`process_read_buf`). Bytes that are no packet end the connection. -/
def workOff (c : Connection) : Connection :=
  if c.isReading then
    match h : Wire.decode c.limit c.buffer with
    | .incomplete => c
    | .fault error => c.absorb (c.endpoint.onDecodeError error)
    | .packet p size =>
      have := Wire.drop_shorter h
      workOff ({ c with buffer := c.buffer.drop size }.absorb (c.endpoint.receive c.now p))
  else c
termination_by c.buffer.length
decreasing_by assumption

/-! ## The flush -/

/-- Puts a packet behind those that are in a buffer already. One that cannot be
written leaves nothing there; the first such failure is kept. -/
def writeNext (written : Bytes × Option EncodeError) (p : Packet) : Bytes × Option EncodeError :=
  match p.write written.1 with
  | (.ok _, buffer) => (buffer, written.2)
  | (.error e, buffer) => (buffer.take written.1.length, written.2.or (some e))

/-- The bytes of packets in order, and the first failure. -/
def encodeAll (packets : List Packet) : Bytes × Option EncodeError :=
  packets.foldl writeNext ([], none)

/-- Keeps the first failure. -/
def fail (c : Connection) (failure : Failure) : Connection :=
  { c with failure := c.failure.or (some failure) }

/-- Writes the packets that have been queued (`flush`). A packet that cannot be
written closes the connection, and so does a client that has gone. -/
def writeOut (c : Connection) : Connection :=
  let (bytes, error) := encodeAll c.unsent.toList
  let c := { c with unsent := #[] }
  let c :=
    match error with
    | some e => (c.absorb c.endpoint.close).fail (.encode e)
    | none => c
  if bytes.isEmpty then c
  else if c.pipe.gone then (c.absorb c.endpoint.onTransportClosed).fail .brokenPipe
  else { c with pipe := { c.pipe with outbox := c.pipe.outbox ++ bytes } }

/-- The application is not there any more: its events are of no interest. -/
def stopDelivering (c : Connection) : Connection := { c with delivering := false, backlog := [] }

/-- Moves as much of the backlog to the channel as there is room for
(`deliver_events`). -/
def deliver (c : Connection) : Connection :=
  if c.backlog.isEmpty then c
  else if !c.channel.listening then c.stopDelivering
  else
    { c with
      channel := { c.channel with queue := c.channel.queue ++ c.backlog.take c.channel.room }
      backlog := c.backlog.drop c.channel.room }

/-- Once the endpoint is closed the broker's side of the stream is shut, and once
the last event is with the application there is nothing left to do; `run` looks for
both behind each flush. -/
def windUp (c : Connection) : Connection :=
  if c.endpoint.isClosed then
    let c := { c with pipe := { c.pipe with shut := true } }
    if c.backlog.isEmpty then { c with finished := true, desk := c.desk.shutDown } else c
  else c

/-- Ends a turn: writes what is to be written, passes on what there is room for,
and sees whether that was all. -/
def flush (c : Connection) : Connection := c.writeOut.deliver.windUp

end Connection
end MqttLink
