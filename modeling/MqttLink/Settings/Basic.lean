import MqttLink.Wire.Length
import MqttLink.Settings.Span
import MqttLink.Settings.SocketAddress
/-!
# Settings

What a server is told before it starts: how much to log, where to listen, and the
limits that hold for every connection. Settings that are left out have defaults.
Settings may be well formed and still make no sense together; `Settings.flaw?`
finds the first thing that is wrong with them, in the order of `validate`.
-/

namespace MqttLink

namespace Settings

/-- What is logged (`LogConfig`). -/
structure Log where
  /-- The least severe level, by name. -/
  level : String
deriving DecidableEq, Repr

/-- Encryption of connections (`ServerTlsConfig`). Certificates and keys are named
by their paths. -/
structure Tls where
  cert : String
  key : String
  /-- The authority that clients' certificates are checked against. -/
  caCert : Option String
  requireClientCert : Bool
deriving DecidableEq, Repr

/-- Where connections come in (`ServerSection`). -/
structure Server where
  bind : SocketAddress
  /-- Where encrypted connections come in. -/
  tlsBind : Option SocketAddress
  tls : Option Tls
  /-- The number of instances that new connections are spread over. -/
  instances : Nat
deriving DecidableEq, Repr

/-- What holds for each connection (`EndpointSection`). -/
structure Endpoint where
  /-- The time for the first packet; a span of zero sets no limit. -/
  connectTimeout : Span
  /-- The time for the answer to a connection request; zero sets no limit. -/
  acceptTimeout : Span
  /-- Whether messages are acknowledged without asking the application. -/
  autoAck : Bool
  maxPacketSize : Nat
  eventCapacity : Nat
  commandCapacity : Nat
deriving DecidableEq, Repr

/-- How much is logged if nothing is said about it (`default_log_level`). -/
def Log.default : Log := { level := "info" }

/-- Plain connections on every interface, at the usual number of the protocol
(`default_bind`, `default_instances`). -/
def Server.default : Server where
  bind := .v4 [0, 0, 0, 0] 1883
  tlsBind := none
  tls := none
  instances := 1

/-- The usual limits of a connection (`default_connect_timeout` and the functions
beside it). -/
def Endpoint.default : Endpoint where
  connectTimeout := .ofSeconds 30
  acceptTimeout := .ofSeconds 30
  autoAck := true
  maxPacketSize := 1048576
  eventCapacity := 64
  commandCapacity := 64

/-- A time limit, if a span sets one (`optional_timeout`). -/
def limit? (s : Span) : Option Span := if s.isZero then none else some s

/-! ## Flaws -/

/-- What can be wrong with settings. -/
inductive Flaw where
  | noInstances
  | packetSize
  | noCapacity
  | noCertificate
  | noKey
  | noTls
deriving DecidableEq, Repr

/-- The text of a flaw. -/
def Flaw.message : Flaw → String
  | .noInstances => "server.instances must be at least 1"
  | .packetSize => s!"endpoint.max_packet_size must be between 1 and {Wire.Length.maxLength}"
  | .noCapacity => "endpoint channel capacities must be at least 1"
  | .noCertificate => "tls.cert is required when tls_bind is set"
  | .noKey => "tls.key is required when tls_bind is set"
  | .noTls => "tls configuration is required when tls_bind is set"

/-- What is wrong with the limits of a connection. -/
def Endpoint.flaw? (e : Endpoint) : Option Flaw :=
  if e.maxPacketSize = 0 ∨ e.maxPacketSize > Wire.Length.maxLength then some .packetSize
  else if e.eventCapacity = 0 ∨ e.commandCapacity = 0 then some .noCapacity
  else none

/-- What is missing for encrypted connections, where these are asked for. -/
def Server.tlsFlaw? (s : Server) : Option Flaw :=
  match s.tlsBind, s.tls with
  | none, _ => none
  | some _, none => some .noTls
  | some _, some tls =>
    if tls.cert = "" then some .noCertificate else if tls.key = "" then some .noKey else none

end Settings

/-- The settings of a server (`Config`). -/
structure Settings where
  log : Settings.Log
  server : Settings.Server
  endpoint : Settings.Endpoint
deriving DecidableEq, Repr

namespace Settings

/-- The settings that hold if nothing is said. -/
def default : Settings := ⟨.default, .default, .default⟩

/-- The first flaw of settings: instances, limits of a connection, encryption
(`validate`). -/
def flaw? (s : Settings) : Option Flaw :=
  if s.server.instances = 0 then some .noInstances
  else s.endpoint.flaw?.or s.server.tlsFlaw?

/-- Nothing is wrong with the defaults. -/
theorem flaw?_default : default.flaw? = none := rfl

end Settings
end MqttLink
