import MqttLink.InFlight
import MqttLink.KeepAlive
/-!
# Sessions

What a connection knows about its client. A session starts empty, is filled in
by CONNECT, and owns the exchanges in flight and the keep-alive watch. It ends
with its connection: nothing in it outlives the byte stream. This is
`ConnectionSession`.
-/

namespace MqttLink

/-- The stages of a connection's life, in the only order in which they come
(`ConnectionState`). -/
inductive Phase where
  /-- CONNECT, or the decision about it, is still to come. -/
  | awaitingConnect
  | connected
  | closing
  | closed
deriving DecidableEq, Repr, Inhabited

namespace Phase

/-- The place of a phase in the order. -/
def rank : Phase → Nat
  | awaitingConnect => 0
  | connected => 1
  | closing => 2
  | closed => 3

/-- The phase's name. -/
def name : Phase → String
  | awaitingConnect => "awaiting-connect"
  | connected => "connected"
  | closing => "closing"
  | closed => "closed"

end Phase

/-- A connection's knowledge of its client (`ConnectionSession`). -/
structure Session where
  clientId : String
  level : ProtocolLevel
  /-- The keep-alive interval in seconds. -/
  keepAlive : UInt16
  cleanSession : Bool
  username : Option String
  /-- What to publish if the client vanishes. -/
  will : Option Will
  exchanges : InFlight
  phase : Phase
  watch : Option KeepAlive.Watch
  createdAt : Instant

namespace Session

/-- The session of a connection on which nothing has happened (`new`). -/
def start (now : Instant) : Session where
  clientId := ""
  level := .v311
  keepAlive := 0
  cleanSession := true
  username := none
  will := none
  exchanges := .empty
  phase := .awaitingConnect
  watch := none
  createdAt := now

/-- Takes over what the client says about itself (`populate`). -/
def populate (s : Session) (c : Connect) : Session :=
  { s with
    clientId := c.clientId
    level := c.level
    keepAlive := c.keepAlive
    cleanSession := c.cleanSession
    username := c.username
    will := c.will }

/-- Moves on to a later phase; a phase that is not later leaves everything as it
is (`transition`). Says whether the session has moved. -/
def transition (s : Session) (next : Phase) : Bool × Session :=
  if next.rank ≤ s.phase.rank then (false, s) else (true, { s with phase := next })

/-- Whether the client has been accepted and the connection still stands
(`is_connected`). -/
def isConnected (s : Session) : Bool := s.phase == .connected

/-- Whether the connection is going or gone (`is_closing`). -/
def isClosing (s : Session) : Bool := Phase.closing.rank ≤ s.phase.rank

/-- Starts the keep-alive watch with the client's interval (`start_keep_alive`). -/
def startWatch (s : Session) (now : Instant) : Session :=
  { s with watch := some (.start s.keepAlive now) }

/-- The client has sent something (`touch`). -/
def touch (s : Session) (now : Instant) : Session :=
  { s with watch := s.watch.map (·.touch now) }

/-- When the client was last heard of, once it is watched (`last_activity`). -/
def lastActivity (s : Session) : Option Instant := s.watch.map (·.lastActivity)

/-- When the client's silence will have been too long. -/
def deadline (s : Session) : Option Instant := s.watch.bind (·.deadline)

/-- Asks the watch whether the client has been silent for too long. -/
def pollWatch (s : Session) (now : Instant) : Bool × Session :=
  match s.watch with
  | none => (false, s)
  | some w =>
    let (expired, w) := w.poll now
    (expired, { s with watch := some w })

/-- Drops the exchanges and the watch (`discard`). -/
def discard (s : Session) : Session :=
  { s with exchanges := s.exchanges.clear, watch := none }

end Session
end MqttLink
