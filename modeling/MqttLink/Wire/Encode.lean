import MqttLink.Wire.Frame
/-!
# Writing packets

A packet is written as its head byte, the length of its body and the body. The
length is added up from the sizes of the fields, as a 32-bit word, before any
field is written; a packet that is too large is refused on that sum alone, and
only then can a single field turn out to be too long for its own length. This is
`Encoder`, with a writer for each of its `encode_` functions.
-/

namespace MqttLink

open Wire Wire.Field

/-- The weight of a flag in a byte. -/
def flagWeight (flag : Bool) (weight : Nat) : Nat := if flag then weight else 0

/-! ## CONNECT -/

namespace Connect

/-- The byte that says which optional fields a CONNECT carries. -/
def flagByte (c : Connect) : UInt8 :=
  UInt8.ofNat <|
    flagWeight c.cleanSession 2 +
    (match c.will with
      | some w => 4 + 8 * w.qos.toNat + flagWeight w.retain 32
      | none => 0) +
    flagWeight c.password.isSome 64 +
    flagWeight c.username.isSome 128

/-- The size of the body. -/
def bodyLength (c : Connect) : Nat :=
  2 + c.level.protocolName.utf8ByteSize + 1 + 1 + 2 +
  (2 + c.clientId.utf8ByteSize) +
  (match c.will with
    | some w => (2 + w.topic.utf8ByteSize) + (2 + w.payload.length)
    | none => 0) +
  (match c.username with
    | some s => 2 + s.utf8ByteSize
    | none => 0) +
  (match c.password with
    | some p => 2 + p.length
    | none => 0)

/-- The topic and payload of a will. -/
def putWill (w : Will) : Writer Unit := do
  putText w.topic
  putBlock w.payload

/-- The fields of the body in order (`encode_connect`). -/
def putBody (c : Connect) : Writer Unit := do
  putText c.level.protocolName
  putByte (UInt8.ofNat c.level.toNat)
  putByte c.flagByte
  putWord c.keepAlive
  putText c.clientId
  c.will.forM putWill
  c.username.forM putText
  c.password.forM putBlock

end Connect

/-! ## PUBLISH -/

namespace Publish

/-- The flags of the head byte. -/
def flagBits (p : Publish) : Nat := flagWeight p.dup 8 + 2 * p.qos.toNat + flagWeight p.retain 1

/-- The size of the body. -/
def bodyLength (p : Publish) : Nat :=
  2 + p.topic.utf8ByteSize + (if p.qos.needsId then 2 else 0) + p.payload.length

/-- The fields of the body in order (`encode_publish`). A level that needs an
identifier gets zero when there is none. -/
def putBody (p : Publish) : Writer Unit := do
  putText p.topic
  if p.qos.needsId then putWord (p.packetId.getD 0)
  put p.payload

end Publish

/-! ## Any packet -/

namespace Packet

/-- The flags in the lower half of the head byte. -/
def flagBits : Packet → Nat
  | publish p => p.flagBits
  | p => p.kind.fixedFlags

/-- The head byte. -/
def head (p : Packet) : UInt8 := UInt8.ofNat (16 * p.kind.toNat + p.flagBits)

/-- Sizes added up. -/
def total (sizes : List Nat) : Nat := sizes.foldr (· + ·) 0

/-- The size of the body, added up from the sizes of its fields. -/
def bodyLength : Packet → Nat
  | connect c => c.bodyLength
  | connack _ _ => 2
  | publish p => p.bodyLength
  | puback _ | pubrec _ | pubrel _ | pubcomp _ | unsuback _ => 2
  | subscribe _ subs => 2 + total (subs.map fun s => 2 + s.filter.utf8ByteSize + 1)
  | suback _ codes => 2 + codes.length
  | unsubscribe _ filters => 2 + total (filters.map fun f => 2 + f.utf8ByteSize)
  | pingreq | pingresp | disconnect => 0

/-- One requested subscription. -/
def putSubscription (s : Subscription) : Writer Unit := do
  putText s.filter
  putByte (UInt8.ofNat s.qos.toNat)

/-- The fields of the body in order (`encode_connack`, `encode_ack`,
`encode_subscribe`, `encode_suback` and `encode_unsubscribe`). A refused CONNACK
never claims a session. -/
def putBody : Packet → Writer Unit
  | connect c => c.putBody
  | connack present code => do
    putByte (UInt8.ofNat (flagWeight (present && code.isAccepted) 1))
    putByte (UInt8.ofNat code.toNat)
  | publish p => p.putBody
  | puback id | pubrec id | pubrel id | pubcomp id | unsuback id => putWord id
  | subscribe id subs => do
    putWord id
    subs.forM putSubscription
  | suback id codes => do
    putWord id
    codes.forM fun c => putByte (UInt8.ofNat c.toNat)
  | unsubscribe id filters => do
    putWord id
    filters.forM putText
  | pingreq | pingresp | disconnect => return

/-- Puts a packet behind what is in a buffer (`encode`). -/
def write (p : Packet) : Writer Unit := do
  putByte p.head
  let _ ← Length.write (UInt32.ofNat p.bodyLength)
  p.putBody

/-- The bytes of a packet. -/
def encode (p : Packet) : Except EncodeError Bytes :=
  match p.write [] with
  | (.ok _, bytes) => .ok bytes
  | (.error e, _) => .error e

end Packet
end MqttLink
