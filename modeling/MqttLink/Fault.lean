import MqttLink.Packet
/-!
# What can be wrong with bytes, with packets and with a client's conduct

Each failure is a value that names its cause; `message` puts it into words.
-/

namespace MqttLink

/-! ## Bytes that are no packet -/

/-- A packet whose parts are readable but do not add up. -/
inductive Malformation where
  | nullCharacter
  | payloadForbidden
  | trailingConnectBytes
  | connackLength
  | acknowledgmentLength
  | dupWithoutQos
  | topicWildcard
  | emptyFilter
  | reservedQosBits
  | noSubscription
  | noUnsubscription
  /-- A fault that another reader found and describes itself. -/
  | described (text : String)
deriving DecidableEq, Repr, Inhabited

/-- The malformation in words. -/
def Malformation.message : Malformation → String
  | nullCharacter => "string contains null character"
  | payloadForbidden => "packet must have no payload"
  | trailingConnectBytes => "trailing bytes in CONNECT"
  | connackLength => "CONNACK must be 2 bytes"
  | acknowledgmentLength => "acknowledgment must carry exactly a packet identifier"
  | dupWithoutQos => "DUP must be 0 for QoS 0"
  | topicWildcard => "topic contains wildcard"
  | emptyFilter => "topic filter cannot be empty"
  | reservedQosBits => "reserved bits set in requested QoS"
  | noSubscription => "SUBSCRIBE must have at least one topic"
  | noUnsubscription => "UNSUBSCRIBE must have at least one topic"
  | described text => text

/-- Why bytes cannot be read as a packet. -/
inductive DecodeError where
  | insufficientData
  | invalidPacketType (code : UInt8)
  | invalidRemainingLength
  | invalidProtocolName
  | unsupportedProtocolVersion (level : UInt8)
  | invalidQos (bits : UInt8)
  | invalidUtf8
  | invalidFlags
  | malformed (what : Malformation)
  | packetTooLarge
  | invalidReturnCode (code : UInt8)
deriving DecidableEq, Repr, Inhabited

/-- The failure in words. -/
def DecodeError.message : DecodeError → String
  | insufficientData => "insufficient data in buffer"
  | invalidPacketType code => "invalid packet type: " ++ toString code.toNat
  | invalidRemainingLength => "invalid remaining length encoding"
  | invalidProtocolName => "invalid protocol name"
  | unsupportedProtocolVersion level => "unsupported protocol version: " ++ toString level.toNat
  | invalidQos bits => "invalid QoS value: " ++ toString bits.toNat
  | invalidUtf8 => "invalid UTF-8 string"
  | invalidFlags => "invalid packet flags"
  | malformed what => "malformed packet: " ++ what.message
  | packetTooLarge => "packet too large"
  | invalidReturnCode code => "invalid return code: " ++ toString code.toNat

/-! ## Packets that no bytes can carry -/

/-- Why a packet cannot be written. -/
inductive EncodeError where
  | packetTooLarge
  | stringTooLong
deriving DecidableEq, Repr, Inhabited

/-- The failure in words. -/
def EncodeError.message : EncodeError → String
  | packetTooLarge => "packet too large"
  | stringTooLong => "string too long"

/-! ## Exchanges that do not take place -/

/-- Why a packet does not fit the exchanges in flight (`QosError`). -/
inductive ExchangeError where
  | zeroPacketId
  | unknownPacketId (id : PacketId)
  | unexpectedStage (id : PacketId)
  | packetIdsExhausted
deriving DecidableEq, Repr, Inhabited

/-- The failure in words. -/
def ExchangeError.message : ExchangeError → String
  | zeroPacketId => "packet identifier 0 is invalid"
  | unknownPacketId id => "no exchange in flight for " ++ toString id.toNat
  | unexpectedStage id => "exchange " ++ toString id.toNat ++ " is at another stage"
  | packetIdsExhausted => "all packet identifiers are in flight"

/-! ## Clients that break the protocol -/

/-- What a client did that the protocol forbids. -/
inductive ProtocolError where
  | expectedConnect (got : PacketKind)
  | duplicateConnect
  | unexpectedPacket (kind : PacketKind)
  | zeroPacketId (kind : PacketKind)
  | unknownPacketId (kind : PacketKind) (id : PacketId)
  | unexpectedStage (kind : PacketKind) (id : PacketId)
  | packetIdInUse (kind : PacketKind) (id : PacketId)
  | packetIdsExhausted
deriving DecidableEq, Repr, Inhabited

/-- The violation in words. -/
def ProtocolError.message : ProtocolError → String
  | expectedConnect got => "expected CONNECT, got " ++ got.name
  | duplicateConnect => "duplicate CONNECT"
  | unexpectedPacket kind => "unexpected " ++ kind.name ++ " packet"
  | zeroPacketId kind => kind.name ++ " with packet identifier 0"
  | unknownPacketId kind id => kind.name ++ " for unknown packet identifier " ++ toString id.toNat
  | unexpectedStage kind id =>
    kind.name ++ " out of order for packet identifier " ++ toString id.toNat
  | packetIdInUse kind id => kind.name ++ " reuses pending packet identifier " ++ toString id.toNat
  | packetIdsExhausted => "packet identifier space exhausted"

/-- A failed exchange as the fault of the client whose packet failed
(`into_protocol_error`). -/
def ExchangeError.asViolation (kind : PacketKind) : ExchangeError → ProtocolError
  | zeroPacketId => .zeroPacketId kind
  | unknownPacketId id => .unknownPacketId kind id
  | unexpectedStage id => .unexpectedStage kind id
  | packetIdsExhausted => .packetIdsExhausted

end MqttLink
