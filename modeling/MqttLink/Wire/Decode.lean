import MqttLink.Wire.Frame
/-!
# Reading packets

A frame becomes a packet when its kind, its flags and every field of its body
are in order. The checks come in the order of the bytes, so the first fault in
the packet is the one that is reported. Packet identifier zero is read like any
other: whether it is in order is not a question of form. This is `Decoder`, with a
reader for each of its `decode_` functions.
-/

namespace MqttLink

open Wire Wire.Field

/-- A test that a reader makes without taking anything. -/
def Wire.require (ok : Bool) (error : DecodeError) : Reader Unit := fun body =>
  if ok then .ok ((), body) else .error error

/-- A value that a reader needs, or the error that its absence is. -/
def Wire.need {α : Type} (found : Option α) (error : DecodeError) : Reader α := fun body =>
  match found with
  | some x => .ok (x, body)
  | none => .error error

/-- Reads a field that may have been left out. -/
def Wire.optional {α : Type} (present : Bool) (field : Reader α) : Reader (Option α) :=
  if present then do return some (← field) else pure none

/-- Runs a reader over a whole body. -/
def Wire.readBody {α : Type} (reader : Reader α) (body : Bytes) : Except DecodeError α :=
  match reader body with
  | .ok (x, _) => .ok x
  | .error e => .error e

namespace Packet

/-! ## CONNECT -/

/-- What the flag byte of a CONNECT announces. -/
structure ConnectFlags where
  cleanSession : Bool
  will : Bool
  willQos : Qos
  willRetain : Bool
  password : Bool
  username : Bool
deriving DecidableEq, Repr

/-- Reads the flag byte: its lowest bit is reserved, a password needs a user
name, the will's level is one of three, and without a will its level and its
retain flag stay zero. -/
def ConnectFlags.ofByte (b : UInt8) : Except DecodeError ConnectFlags :=
  let bit (i : Nat) : Bool := b.toNat.testBit i
  let level := b.toNat / 8 % 4
  if bit 0 then .error .invalidFlags
  else if bit 6 && !bit 7 then .error .invalidFlags
  else
    match Qos.ofNat? level with
    | none => .error (.invalidQos (UInt8.ofNat level))
    | some q =>
      if !bit 2 && (q != .atMostOnce || bit 5) then .error .invalidFlags
      else .ok ⟨bit 1, bit 2, q, bit 5, bit 6, bit 7⟩

/-- The protocol level that a CONNECT asks for: its name has to be one of the
two names in use, and the level the one that goes with it. -/
def readLevel : Reader ProtocolLevel := do
  let name ← text
  require (name == ProtocolLevel.v311.protocolName || name == ProtocolLevel.v31.protocolName)
    .invalidProtocolName
  let code ← byte
  let known := ProtocolLevel.ofNat? code.toNat
  need (known.filter (·.protocolName == name)) (.unsupportedProtocolVersion code)

/-- The will's topic and payload. -/
def readWill (qos : Qos) (retain : Bool) : Reader Will := do
  let topic ← text
  let payload ← block
  return { topic, payload, qos, retain }

/-- The body of a CONNECT (`decode_connect`). -/
def readConnect : Reader Connect := do
  let level ← readLevel
  let flagByte ← byte
  let flags ← StateT.lift (ConnectFlags.ofByte flagByte)
  let keepAlive ← word
  let clientId ← text
  let will ← optional flags.will (readWill flags.willQos flags.willRetain)
  let username ← optional flags.username text
  let password ← optional flags.password block
  let trailing ← remainder
  require trailing.isEmpty (.malformed .trailingConnectBytes)
  let cleanSession := flags.cleanSession
  return { level, clientId, cleanSession, keepAlive, username, password, will }

/-! ## The other kinds -/

/-- The body of a CONNACK (`decode_connack`). -/
def readConnack (body : Bytes) : Except DecodeError Packet :=
  match body with
  | [flags, code] =>
    if flags.toNat / 2 ≠ 0 then .error .invalidFlags
    else
      match ConnectCode.ofNat? code.toNat with
      | some c => .ok (connack (flags.toNat % 2 == 1) c)
      | none => .error (.invalidReturnCode code)
  | _ => .error (.malformed .connackLength)

/-- The body of a PUBLISH with the given flags (`decode_publish`). -/
def readPublish (flags : Nat) : Reader Publish := do
  let dup := flags.testBit 3
  let level := flags / 2 % 4
  let qos ← need (Qos.ofNat? level) (.invalidQos (UInt8.ofNat level))
  require (!(qos == .atMostOnce && dup)) (.malformed .dupWithoutQos)
  let topic ← text
  require (!Topic.hasWildcard topic) (.malformed .topicWildcard)
  let packetId ← optional qos.needsId word
  let payload ← remainder
  return { dup, qos, retain := flags.testBit 0, topic, packetId, payload }

/-- The body of an acknowledgment, which is an identifier and nothing else
(`decode_ack`). -/
def readAcknowledgment (body : Bytes) : Except DecodeError PacketId :=
  if body.length = 2 then readBody word body
  else .error (.malformed .acknowledgmentLength)

/-- The filter of a subscription or unsubscription. -/
def readFilter : Reader String := fun body =>
  match text body with
  | .error e => .error e
  | .ok (s, rest) => if s.isEmpty then .error (.malformed .emptyFilter) else .ok (s, rest)

/-- One requested subscription: a filter and the level asked for. -/
def readSubscription : Reader Subscription := fun body =>
  match readFilter body with
  | .error e => .error e
  | .ok (_, []) => .error .insufficientData
  | .ok (filter, options :: rest) =>
    if options.toNat / 4 ≠ 0 then .error (.malformed .reservedQosBits)
    else
      match Qos.ofNat? options.toNat with
      | none => .error (.invalidQos options)
      | some qos => .ok (⟨filter, qos⟩, rest)

theorem readFilter_shorter {body rest : Bytes} {s : String}
    (h : readFilter body = .ok (s, rest)) : rest.length + 2 ≤ body.length := by
  unfold readFilter at h
  split at h
  · cases h
  · rename_i ht
    split at h
    · cases h
    · cases h
      exact text_shorter ht

theorem readSubscription_shorter {body rest : Bytes} {s : Subscription}
    (h : readSubscription body = .ok (s, rest)) : rest.length + 3 ≤ body.length := by
  unfold readSubscription at h
  split at h
  · cases h
  · cases h
  · rename_i hf
    have := readFilter_shorter hf
    split at h
    · cases h
    · split at h
      · cases h
      · cases h
        simp only [List.length_cons] at this
        omega

/-- The body of a SUBSCRIBE (`decode_subscribe`). -/
def readSubscribe (body : Bytes) : Except DecodeError Packet := do
  let (id, rest) ← word body
  let subs ← many readSubscription
    (fun h => Nat.lt_of_lt_of_le (by omega) (readSubscription_shorter h)) #[] rest
  if subs.isEmpty then .error (.malformed .noSubscription) else return subscribe id subs

/-- The body of an UNSUBSCRIBE (`decode_unsubscribe`). -/
def readUnsubscribe (body : Bytes) : Except DecodeError Packet := do
  let (id, rest) ← word body
  let filters ← many readFilter
    (fun h => Nat.lt_of_lt_of_le (by omega) (readFilter_shorter h)) #[] rest
  if filters.isEmpty then .error (.malformed .noUnsubscription) else return unsubscribe id filters

/-- One outcome code of a SUBACK. -/
def readSubackCode (code : UInt8) : Except DecodeError SubackCode :=
  match SubackCode.ofNat? code.toNat with
  | some c => .ok c
  | none => .error (.invalidReturnCode code)

/-- The body of a SUBACK: an identifier and at least one outcome (`decode_suback`). -/
def readSuback (body : Bytes) : Except DecodeError Packet := do
  let (id, rest) ← word body
  if rest.isEmpty then .error .insufficientData else return suback id (← rest.mapM readSubackCode)

/-- The body of a packet that has none (`expect_empty`). -/
def readNothing (p : Packet) (body : Bytes) : Except DecodeError Packet :=
  if body.isEmpty then .ok p else .error (.malformed .payloadForbidden)

/-! ## Whole packets -/

/-- The body of a packet of any kind. -/
def readKind (flags : Nat) (body : Bytes) : PacketKind → Except DecodeError Packet
  | .connect => (readBody readConnect body).map connect
  | .connack => readConnack body
  | .publish => (readBody (readPublish flags) body).map publish
  | .puback => (readAcknowledgment body).map puback
  | .pubrec => (readAcknowledgment body).map pubrec
  | .pubrel => (readAcknowledgment body).map pubrel
  | .pubcomp => (readAcknowledgment body).map pubcomp
  | .subscribe => readSubscribe body
  | .suback => readSuback body
  | .unsubscribe => readUnsubscribe body
  | .unsuback => (readAcknowledgment body).map unsuback
  | .pingreq => readNothing pingreq body
  | .pingresp => readNothing pingresp body
  | .disconnect => readNothing disconnect body

/-- The packet that a frame holds. The flags of every kind but PUBLISH are fixed. -/
def ofFrame (f : Frame) : Except DecodeError Packet :=
  match PacketKind.ofNat? f.kindCode with
  | none => .error (.invalidPacketType (UInt8.ofNat f.kindCode))
  | some kind =>
    if kind ≠ .publish ∧ f.flags ≠ kind.fixedFlags then .error .invalidFlags
    else readKind f.flags f.body kind

end Packet

/-! ## Buffers -/

namespace Wire

/-- What the start of a buffer holds. -/
inductive Decoded where
  /-- More bytes are needed. -/
  | incomplete
  /-- The bytes are no packet, whatever follows. -/
  | fault (error : DecodeError)
  /-- A packet that takes up `size` bytes. -/
  | packet (packet : Packet) (size : Nat)
deriving DecidableEq, Repr

/-- The limit that a decoder works under when it is asked for `limit`
(`with_max_packet_size`): no length field can announce more than `Length.maxLength`. -/
def effectiveLimit (limit : Nat) : Nat := min limit Length.maxLength

/-- Reads the packet at the start of a buffer; a body of more than `limit` bytes
is refused (`decode`). -/
def decode (limit : Nat) (buffer : Bytes) : Decoded :=
  match Frame.read limit buffer with
  | .incomplete => .incomplete
  | .fault e => .fault e
  | .frame f size =>
    match Packet.ofFrame f with
    | .ok p => .packet p size
    | .error e => .fault e

/-- A packet takes up at least its head and one byte of length, and no more than
there is. -/
theorem decode_size {limit size : Nat} {buffer : Bytes} {p : Packet}
    (h : decode limit buffer = .packet p size) : 2 ≤ size ∧ size ≤ buffer.length := by
  unfold decode at h
  split at h
  · cases h
  · cases h
  · rename_i hf
    split at h
    · cases h
      exact Frame.read_size hf
    · cases h

/-- Less is left behind a packet than there was. -/
theorem drop_shorter {limit size : Nat} {buffer : Bytes} {p : Packet}
    (h : decode limit buffer = .packet p size) : (buffer.drop size).length < buffer.length := by
  have := decode_size h
  simp only [List.length_drop]
  omega

end Wire
end MqttLink
