import MqttLink.Session
import MqttLink.Endpoint.Event
/-!
# The endpoint of one connection

An endpoint is the broker's side of one client connection, without the bytes
and without the clock. Every input, together with the time at which it comes,
turns it into a `Reaction`: the endpoint as it is then, the packets to send to
the client and the events to tell the application, each in order.

This module holds the state, reactions, and the two ways out: closing, and
refusing a CONNECT. `poll_transmit` and `poll_event` hand out a reaction's packets
and events one by one.
-/

namespace MqttLink

/-- How an endpoint is to behave (`EndpointConfig`). -/
structure Policy where
  /-- How long to wait for CONNECT, in milliseconds; without a limit if absent. -/
  connectTimeout : Option Nat
  /-- How long the application may think about CONNECT, in milliseconds. -/
  acceptTimeout : Option Nat
  /-- Whether messages are acknowledged without asking the application. -/
  autoAck : Bool
deriving DecidableEq, Repr

/-- How far the decision about the client has come: `connect_deadline` and
`pending_connect`. Of the two there is one at a time, since `handle_connect` clears
the first before it sets the second. -/
inductive Handshake where
  /-- CONNECT has not come; the deadline is for its coming. -/
  | waiting (deadline : Option Instant)
  /-- The application has been asked; the deadline is for its answer. The packets
  that came behind CONNECT are held back until then. -/
  | deciding (deadline : Option Instant) (deferred : Array Packet)
  /-- The client has been accepted or refused, or is gone. -/
  | over
deriving DecidableEq, Repr

/-- The broker's side of one client connection. -/
structure Endpoint where
  policy : Policy
  session : Session
  handshake : Handshake
  /-- The SUBSCRIBE packets that wait for SUBACK, with the number of their filters. -/
  subscribes : Std.TreeMap PacketId Nat
  /-- The UNSUBSCRIBE packets that wait for UNSUBACK. -/
  unsubscribes : Std.TreeSet PacketId

/-- What an endpoint has become, and what it wants said, in order. -/
structure Reaction where
  endpoint : Endpoint
  packets : Array Packet
  events : Array Event

namespace Reaction

/-- The silent reaction. -/
def still (e : Endpoint) : Reaction := ⟨e, #[], #[]⟩

/-- One more packet for the client. -/
def send (r : Reaction) (p : Packet) : Reaction := { r with packets := r.packets.push p }

/-- One more event for the application. -/
def tell (r : Reaction) (event : Event) : Reaction := { r with events := r.events.push event }

/-- What happens next, to the endpoint as it is now. -/
def andThen (r : Reaction) (next : Endpoint → Reaction) : Reaction :=
  let r' := next r.endpoint
  ⟨r'.endpoint, r.packets ++ r'.packets, r.events ++ r'.events⟩

@[simp] theorem still_andThen (e : Endpoint) (next : Endpoint → Reaction) :
    (still e).andThen next = next e := by
  simp [still, andThen]

@[simp] theorem andThen_still (r : Reaction) : r.andThen still = r := by
  simp [still, andThen]

theorem andThen_assoc (r : Reaction) (f g : Endpoint → Reaction) :
    (r.andThen f).andThen g = r.andThen fun e => (f e).andThen g := by
  simp [andThen, Array.append_assoc]

end Reaction

namespace Endpoint

open Reaction

/-- The endpoint of a connection that has just been opened (`with_clock`). -/
def start (policy : Policy) (now : Instant) : Endpoint where
  policy := policy
  session := .start now
  handshake := .waiting (policy.connectTimeout.map (now + ·))
  subscribes := ∅
  unsubscribes := ∅

/-- Whether the connection is over (`is_closed`). -/
def isClosed (e : Endpoint) : Bool := e.session.isClosing

/-- Whether a CONNECT waits for the application's decision (`is_awaiting_decision`). -/
def isAwaitingDecision (e : Endpoint) : Bool :=
  match e.handshake with
  | .deciding _ _ => true
  | _ => false

/-- When `onTimeout` will have something to do, if nothing else happens
(`poll_timeout`). -/
def deadline (e : Endpoint) : Option Instant :=
  match e.session.phase with
  | .awaitingConnect =>
    match e.handshake with
    | .waiting due => due
    | .deciding due _ => due
    | .over => none
  | .connected => e.session.deadline
  | .closing | .closed => none

/-! ## Ways out -/

/-- What is left of an endpoint when its connection ends: the exchanges, the
watch and everything that waits for an answer are dropped. -/
def ended (e : Endpoint) : Endpoint :=
  { e with
    session := { e.session.discard with phase := .closed, will := none }
    handshake := .over
    subscribes := ∅
    unsubscribes := ∅ }

/-- The will, if an accepted client has vanished. -/
def releasedWill (reason : CloseReason) (e : Endpoint) : Option Will :=
  if e.session.isConnected && !reason.isGraceful then e.session.will else none

/-- Ends the connection and tells the application why, with the will if it is
released (`close_with`). Only the first end counts. -/
def closeWith (reason : CloseReason) (e : Endpoint) : Reaction :=
  if e.isClosed then still e
  else (still e.ended).tell (.closed reason (e.releasedWill reason))

/-- Ends the connection of a client that has broken the protocol (`protocol_error`). -/
def violation (error : ProtocolError) (e : Endpoint) : Reaction :=
  e.closeWith (.protocolError error)

/-- Answers CONNECT with a failure and ends the connection (`refuse`). -/
def refuse (code : ConnectCode) (e : Endpoint) : Reaction :=
  ((still e).send (.connack false code)).andThen (closeWith (.rejected code))

/-- The application ends the connection (`close`). -/
def close (e : Endpoint) : Reaction := e.closeWith .applicationClosed

/-- The client's byte stream has ended (`handle_transport_closed`). -/
def onTransportClosed (e : Endpoint) : Reaction := e.closeWith .transportClosed

/-- The client has sent bytes that are no packet (`handle_decode_error` and
`decode_failure`). A client whose CONNECT asks for an unknown protocol level is
told so, as long as it has not been heard of before. -/
def onDecodeError (error : DecodeError) (e : Endpoint) : Reaction :=
  if e.isClosed then still e
  else
    let fresh := e.session.phase == .awaitingConnect && !e.isAwaitingDecision
    match error with
    | .unsupportedProtocolVersion _ =>
      if fresh then e.refuse .unacceptableProtocolVersion else e.closeWith (.decodeError error)
    | _ => e.closeWith (.decodeError error)

/-- Whether a deadline has passed. -/
def isDue (deadline : Option Instant) (now : Instant) : Bool := deadline.any (· ≤ now)

/-- Looks at the deadline that counts in the present phase (`handle_timeout` and
`check_connect_deadlines`). -/
def onTimeout (now : Instant) (e : Endpoint) : Reaction :=
  match e.session.phase with
  | .awaitingConnect =>
    match e.handshake with
    | .waiting due => if isDue due now then e.closeWith .timeout else still e
    | .deciding due _ => if isDue due now then e.refuse .serverUnavailable else still e
    | .over => still e
  | .connected =>
    let (expired, session) := e.session.pollWatch now
    let e := { e with session }
    if expired then e.closeWith .keepAliveExpired else still e
  | .closing | .closed => still e

end Endpoint
end MqttLink
