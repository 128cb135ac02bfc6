import MqttLink.Qos
/-!
# The numbers that packets carry in place of names

Protocol levels, the outcome codes of CONNACK and SUBACK, and the fourteen
packet kinds, each with its number on the wire and the text that describes it.
-/

namespace MqttLink

/-! ## Protocol levels -/

/-- The two protocol levels that a client may speak (`ProtocolVersion`). -/
inductive ProtocolLevel where
  | v31
  | v311
deriving DecidableEq, Repr, Inhabited

namespace ProtocolLevel

/-- The level byte of CONNECT. -/
def toNat : ProtocolLevel → Nat
  | v31 => 3
  | v311 => 4

/-- The level that a byte stands for (`from_u8`). -/
def ofNat? : Nat → Option ProtocolLevel
  | 3 => some v31
  | 4 => some v311
  | _ => none

/-- The protocol name that goes with the level in CONNECT (`protocol_name`). -/
def protocolName : ProtocolLevel → String
  | v31 => "MQIsdp"
  | v311 => "MQTT"

@[simp] theorem ofNat?_toNat (l : ProtocolLevel) : ofNat? l.toNat = some l := by
  cases l <;> rfl

theorem ofNat?_eq_some_iff {n : Nat} {l : ProtocolLevel} : ofNat? n = some l ↔ n = l.toNat := by
  constructor
  · intro h
    unfold ofNat? at h
    split at h <;> cases h <;> rfl
  · rintro rfl
    exact ofNat?_toNat l

end ProtocolLevel

/-! ## CONNACK -/

/-- How a broker answers CONNECT (`ConnectReturnCode`). -/
inductive ConnectCode where
  | accepted
  | unacceptableProtocolVersion
  | identifierRejected
  | serverUnavailable
  | badUsernameOrPassword
  | notAuthorized
deriving DecidableEq, Repr, Inhabited

namespace ConnectCode

/-- The code as it is written on the wire. -/
def toNat : ConnectCode → Nat
  | accepted => 0
  | unacceptableProtocolVersion => 1
  | identifierRejected => 2
  | serverUnavailable => 3
  | badUsernameOrPassword => 4
  | notAuthorized => 5

/-- The code that a number stands for (`from_u8`). -/
def ofNat? : Nat → Option ConnectCode
  | 0 => some accepted
  | 1 => some unacceptableProtocolVersion
  | 2 => some identifierRejected
  | 3 => some serverUnavailable
  | 4 => some badUsernameOrPassword
  | 5 => some notAuthorized
  | _ => none

/-- Whether the code lets the client in (`is_accepted`). -/
def isAccepted : ConnectCode → Bool
  | accepted => true
  | _ => false

/-- The code in words. -/
def message : ConnectCode → String
  | accepted => "connection accepted"
  | unacceptableProtocolVersion => "unacceptable protocol version"
  | identifierRejected => "identifier rejected"
  | serverUnavailable => "server unavailable"
  | badUsernameOrPassword => "bad username or password"
  | notAuthorized => "not authorized"

@[simp] theorem ofNat?_toNat (c : ConnectCode) : ofNat? c.toNat = some c := by
  cases c <;> rfl

theorem ofNat?_eq_some_iff {n : Nat} {c : ConnectCode} : ofNat? n = some c ↔ n = c.toNat := by
  constructor
  · intro h
    unfold ofNat? at h
    split at h <;> cases h <;> rfl
  · rintro rfl
    exact ofNat?_toNat c

end ConnectCode

/-! ## SUBACK -/

/-- The answer to one requested filter: the granted level, or a refusal
(`SubAckReturnCode`). -/
inductive SubackCode where
  | granted (qos : Qos)
  | failure
deriving DecidableEq, Repr, Inhabited

namespace SubackCode

/-- The code as it is written on the wire. -/
def toNat : SubackCode → Nat
  | granted q => q.toNat
  | failure => 128

/-- The code that a number stands for (`from_u8`). -/
def ofNat? (n : Nat) : Option SubackCode :=
  if n = 128 then some failure else (Qos.ofNat? n).map granted

/-- The granted level, if any (`granted_qos`). -/
def grantedQos? : SubackCode → Option Qos
  | granted q => some q
  | failure => none

@[simp] theorem ofNat?_toNat (c : SubackCode) : ofNat? c.toNat = some c := by
  cases c with
  | granted q => cases q <;> rfl
  | failure => rfl

theorem ofNat?_eq_some_iff {n : Nat} {c : SubackCode} : ofNat? n = some c ↔ n = c.toNat := by
  constructor
  · intro h
    unfold ofNat? at h
    split at h
    · cases h
      assumption
    · obtain ⟨q, level, rfl⟩ := Option.map_eq_some_iff.1 h
      exact Qos.ofNat?_eq_some_iff.1 level
  · rintro rfl
    exact ofNat?_toNat c

end SubackCode

/-! ## Packet kinds -/

/-- The fourteen control packets (`PacketType`). -/
inductive PacketKind where
  | connect
  | connack
  | publish
  | puback
  | pubrec
  | pubrel
  | pubcomp
  | subscribe
  | suback
  | unsubscribe
  | unsuback
  | pingreq
  | pingresp
  | disconnect
deriving DecidableEq, Repr, Inhabited

namespace PacketKind

/-- The number in the upper half of a packet's first byte. -/
def toNat : PacketKind → Nat
  | connect => 1
  | connack => 2
  | publish => 3
  | puback => 4
  | pubrec => 5
  | pubrel => 6
  | pubcomp => 7
  | subscribe => 8
  | suback => 9
  | unsubscribe => 10
  | unsuback => 11
  | pingreq => 12
  | pingresp => 13
  | disconnect => 14

/-- The kind that a number stands for (`from_u8`); 0 and 15 are reserved. -/
def ofNat? : Nat → Option PacketKind
  | 1 => some connect
  | 2 => some connack
  | 3 => some publish
  | 4 => some puback
  | 5 => some pubrec
  | 6 => some pubrel
  | 7 => some pubcomp
  | 8 => some subscribe
  | 9 => some suback
  | 10 => some unsubscribe
  | 11 => some unsuback
  | 12 => some pingreq
  | 13 => some pingresp
  | 14 => some disconnect
  | _ => none

/-- The kind's name. -/
def name : PacketKind → String
  | connect => "CONNECT"
  | connack => "CONNACK"
  | publish => "PUBLISH"
  | puback => "PUBACK"
  | pubrec => "PUBREC"
  | pubrel => "PUBREL"
  | pubcomp => "PUBCOMP"
  | subscribe => "SUBSCRIBE"
  | suback => "SUBACK"
  | unsubscribe => "UNSUBSCRIBE"
  | unsuback => "UNSUBACK"
  | pingreq => "PINGREQ"
  | pingresp => "PINGRESP"
  | disconnect => "DISCONNECT"

/-- The lower half of the first byte of every packet of this kind but PUBLISH,
whose flags carry content. -/
def fixedFlags : PacketKind → Nat
  | pubrel | subscribe | unsubscribe => 2
  | _ => 0

@[simp] theorem ofNat?_toNat (k : PacketKind) : ofNat? k.toNat = some k := by
  cases k <;> rfl

theorem ofNat?_eq_some_iff {n : Nat} {k : PacketKind} : ofNat? n = some k ↔ n = k.toNat := by
  constructor
  · intro h
    unfold ofNat? at h
    split at h <;> cases h <;> rfl
  · rintro rfl
    exact ofNat?_toNat k

end PacketKind
end MqttLink
