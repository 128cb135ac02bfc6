import MqttLink.Settings.Basic
import MqttLink.Settings.Value
/-!
# Settings as records of values

A record gives its members by name, as a table, or in the order of their
declaration, as an array. Members that are left out keep their defaults, and those
that nobody knows are passed over. How a single value is taken as a text, a flag
or a size is left to a convention, of which there are two: the exact one for a
settings text on its own, and the loose one for layers, where an override knows
only texts.
-/

namespace MqttLink.Settings

/-! ## Members -/

/-- The members of a record. -/
inductive Members where
  | named (entries : Entries)
  | listed (items : List Value)

/-- The member with a name, which is declared at a position. -/
def Members.get? (position : Nat) (name : String) : Members → Option Value
  | .named entries => entries.lookup name
  | .listed items => items[position]?

/-- Whether members are given up to a position. Names may come in any order, so
only an array can end too early. -/
def Members.reach (position : Nat) : Members → Bool
  | .named _ => true
  | .listed items => position < items.length

/-- Takes a member as what it has to be. -/
def Members.required (m : Members) {α : Type} (position : Nat) (name : String)
    (read : Value → Option α) : Option α := do
  read (← m.get? position name)

/-- Takes a member that may be left out. -/
def Members.optional (m : Members) {α : Type} (position : Nat) (name : String)
    (read : Value → Option α) (default : α) : Option α :=
  match m.get? position name with
  | some v => read v
  | none => some default

/-- Takes a member of which there may be none: it is left out, or its place in an
array has not been filled. -/
def Members.possible (m : Members) {α : Type} (position : Nat) (name : String)
    (read : Value → Option α) : Option (Option α) :=
  match m.get? position name with
  | none | some .nothing => some none
  | some v => (read v).map some

/-! ## Conventions -/

/-- How values are taken as the types of the settings. -/
structure Convention where
  text : Value → Option String
  flag : Value → Option Bool
  /-- An unsigned number of 64 bits. -/
  size : Value → Option Nat
  members : Value → Option Members

/-- A number without a sign. -/
def unsigned? (n : Int) : Option Nat := if 0 ≤ n then some n.toNat else none

/-- Only values of the type itself. A date has no member that a record knows. -/
def Convention.exact : Convention where
  text
    | .text s => some s
    | _ => none
  flag
    | .bool b => some b
    | _ => none
  size
    | .integer n => unsigned? n
    | _ => none
  members
    | .table entries => some (.named entries)
    | .array items => some (.listed items)
    | .datetime _ => some (.named [])
    | _ => none

/-- A letter in lower case. Outside ASCII only the Kelvin sign has a lower case
in ASCII, and no other letter matters here. -/
def lowerChar (c : Char) : Char := if c = '\u212a' then 'k' else c.toLower

/-- A text in lower case. -/
def lower (s : String) : String := String.ofList (s.toList.map lowerChar)

/-- The words for yes and no. -/
def answer? : String → Option Bool
  | "true" | "on" | "yes" => some true
  | "false" | "off" | "no" => some false
  | _ => none

/-- The words for a flag, to which the digits for it belong. -/
def flagOfText? (s : String) : Option Bool :=
  match lower s with
  | "1" => some true
  | "0" => some false
  | word => answer? word

/-- A size in digits. The words for a flag count as one and zero. -/
def sizeOfText? (s : String) : Option Nat :=
  match answer? (lower s) with
  | some b => some b.toNat
  | none => Number.toNat64? s

/-- Scalars of all types stand in for each other as far as they can. -/
def Convention.loose : Convention where
  text
    | .text s | .datetime s => some s
    | .bool b => some (toString b)
    | .integer n => some (toString n)
    | .float x => some x.toText
    | .nothing | .array _ | .table _ => none
  flag
    | .text s | .datetime s => flagOfText? s
    | .bool b => some b
    | .integer n => some (n != 0)
    | .float x => some x.isNonzero
    | .nothing | .array _ | .table _ => none
  size
    | .text s | .datetime s => sizeOfText? s
    | .bool b => some b.toNat
    | .integer n => unsigned? n
    | .float x => some x.toNat64
    | .nothing | .array _ | .table _ => none
  members
    | .table entries => some (.named entries)
    | .array items => some (.listed items)
    | _ => none

/-! ## Records -/

/-- A span of time in words. -/
def Convention.span (c : Convention) (v : Value) : Option Span := do
  Span.ofText? (← c.text v)

/-- An address to listen at. -/
def Convention.address (c : Convention) (v : Value) : Option SocketAddress := do
  SocketAddress.ofText? (← c.text v)

/-- What is logged. -/
def Log.read (c : Convention) (v : Value) : Option Log := do
  let m ← c.members v
  let level ← m.optional 0 "level" c.text Log.default.level
  return { level }

/-- How connections are encrypted. Certificate and key have to be there, and in an
array the authority as well. -/
def Tls.read (c : Convention) (v : Value) : Option Tls := do
  let m ← c.members v
  let cert ← m.required 0 "cert" c.text
  let key ← m.required 1 "key" c.text
  if !m.reach 2 then none
  let caCert ← m.possible 2 "ca_cert" c.text
  let requireClientCert ← m.optional 3 "require_client_cert" c.flag false
  return { cert, key, caCert, requireClientCert }

/-- Where connections come in. -/
def Server.read (c : Convention) (v : Value) : Option Server := do
  let m ← c.members v
  let bind ← m.optional 0 "bind" c.address Server.default.bind
  let tlsBind ← m.possible 1 "tls_bind" c.address
  let tls ← m.possible 2 "tls" (Tls.read c)
  let instances ← m.optional 3 "instances" c.size Server.default.instances
  return { bind, tlsBind, tls, instances }

/-- What holds for each connection. -/
def Endpoint.read (c : Convention) (v : Value) : Option Endpoint := do
  let m ← c.members v
  let initial := Endpoint.default
  let connectTimeout ← m.optional 0 "connect_timeout" c.span initial.connectTimeout
  let acceptTimeout ← m.optional 1 "accept_timeout" c.span initial.acceptTimeout
  let autoAck ← m.optional 2 "auto_ack" c.flag initial.autoAck
  let maxPacketSize ← m.optional 3 "max_packet_size" c.size initial.maxPacketSize
  let eventCapacity ← m.optional 4 "event_capacity" c.size initial.eventCapacity
  let commandCapacity ← m.optional 5 "command_capacity" c.size initial.commandCapacity
  return { connectTimeout, acceptTimeout, autoAck, maxPacketSize, eventCapacity, commandCapacity }

/-- The settings that a table says. -/
def read (c : Convention) (entries : Entries) : Option Settings := do
  let m := Members.named entries
  let log ← m.optional 0 "log" (Log.read c) .default
  let server ← m.optional 1 "server" (Server.read c) .default
  let endpoint ← m.optional 2 "endpoint" (Endpoint.read c) .default
  return { log, server, endpoint }

end MqttLink.Settings
