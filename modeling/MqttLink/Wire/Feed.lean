import MqttLink.Wire.Decode
/-!
# Packets out of a stream of chunks

Bytes arrive in chunks that know nothing of packets. A `Feed` keeps the bytes
that have not been read yet. After each chunk it reads packets until the bytes
run out or turn out to be no packet; after that it only collects bytes.
-/

namespace MqttLink.Wire

/-- The packets at the front of a buffer, in order, what is left behind them,
and the fault at which reading stopped, if any. -/
structure Unpacked where
  packets : Array Packet
  rest : Bytes
  fault : Option DecodeError

/-- Reads packets off a buffer behind those already found. -/
def unpackAfter (limit : Nat) (found : Array Packet) (buffer : Bytes) : Unpacked :=
  match h : decode limit buffer with
  | .incomplete => ⟨found, buffer, none⟩
  | .fault e => ⟨found, buffer, some e⟩
  | .packet p size =>
    have := drop_shorter h
    unpackAfter limit (found.push p) (buffer.drop size)
termination_by buffer.length
decreasing_by assumption

/-- Reads every packet at the front of a buffer. -/
def unpack (limit : Nat) (buffer : Bytes) : Unpacked := unpackAfter limit #[] buffer

/-- A stream of chunks as far as it has been read. -/
structure Feed where
  limit : Nat
  /-- Bytes that belong to no packet yet. -/
  buffer : Bytes
  /-- Set by the first fault; nothing is read after it. -/
  stopped : Bool

namespace Feed

/-- A stream of which nothing has arrived. -/
def empty (limit : Nat) : Feed := ⟨limit, [], false⟩

/-- Takes in one chunk and reads what it completes. -/
def push (feed : Feed) (chunk : Bytes) : Feed × Array Packet × Option DecodeError :=
  let buffer := feed.buffer ++ chunk
  if feed.stopped then ({ feed with buffer }, #[], none)
  else
    let u := unpack feed.limit buffer
    ({ feed with buffer := u.rest, stopped := u.fault.isSome }, u.packets, u.fault)

end Feed
end MqttLink.Wire
