import MqttLink.Code
/-!
# Control packets

The fourteen packets of the protocol as values. A packet here is only a
record of what was said; which values the wire can carry is the business of
`MqttLink.Wire`, and which are in order is the business of `MqttLink.Endpoint`.
-/

namespace MqttLink

/-- Bytes in the order in which they travel. -/
abbrev Bytes := List UInt8

/-- The message that a broker publishes for a client that vanishes. -/
structure Will where
  topic : String
  payload : Bytes
  qos : Qos
  retain : Bool
deriving BEq, DecidableEq, Repr, Inhabited

/-- What a client says about itself when it connects. -/
structure Connect where
  level : ProtocolLevel
  clientId : String
  cleanSession : Bool
  /-- The longest silence the client promises, in seconds; zero promises nothing. -/
  keepAlive : UInt16
  username : Option String
  password : Option Bytes
  will : Option Will
deriving BEq, DecidableEq, Repr, Inhabited

/-- An application message on its way. -/
structure Publish where
  dup : Bool
  qos : Qos
  retain : Bool
  topic : String
  packetId : Option PacketId
  payload : Bytes
deriving BEq, DecidableEq, Repr, Inhabited

/-- A topic filter with the level that is asked for it. -/
structure Subscription where
  filter : String
  qos : Qos
deriving BEq, DecidableEq, Repr, Inhabited

/-- A control packet. -/
inductive Packet where
  | connect (connect : Connect)
  | connack (sessionPresent : Bool) (code : ConnectCode)
  | publish (publish : Publish)
  | puback (id : PacketId)
  | pubrec (id : PacketId)
  | pubrel (id : PacketId)
  | pubcomp (id : PacketId)
  | subscribe (id : PacketId) (subscriptions : List Subscription)
  | suback (id : PacketId) (codes : List SubackCode)
  | unsubscribe (id : PacketId) (filters : List String)
  | unsuback (id : PacketId)
  | pingreq
  | pingresp
  | disconnect
deriving BEq, DecidableEq, Repr, Inhabited

/-- Which of the fourteen kinds a packet is (`packet_type`). -/
def Packet.kind : Packet → PacketKind
  | connect _ => .connect
  | connack _ _ => .connack
  | publish _ => .publish
  | puback _ => .puback
  | pubrec _ => .pubrec
  | pubrel _ => .pubrel
  | pubcomp _ => .pubcomp
  | subscribe _ _ => .subscribe
  | suback _ _ => .suback
  | unsubscribe _ _ => .unsubscribe
  | unsuback _ => .unsuback
  | pingreq => .pingreq
  | pingresp => .pingresp
  | disconnect => .disconnect

end MqttLink
