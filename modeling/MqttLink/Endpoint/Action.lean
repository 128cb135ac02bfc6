import MqttLink.Endpoint.Request
/-!
# Everything that can happen to an endpoint

`Action` lists the requests of the application, and `Input` everything that can
happen to an endpoint. `step` says what comes of it, and `run` what comes of one
thing after the other.
-/

namespace MqttLink

/-- A request of the application. -/
inductive Action where
  | accept (sessionPresent : Bool)
  | reject (code : ConnectCode)
  | publish (topic : String) (payload : Bytes) (qos : Qos) (dup retain : Bool)
  | retransmit (id : PacketId)
  | subscribeAcknowledge (id : PacketId) (codes : List SubackCode)
  | unsubscribeAcknowledge (id : PacketId)
  | publishAcknowledge (id : PacketId)
  | publishReceived (id : PacketId)
  | publishRelease (id : PacketId)
  | publishComplete (id : PacketId)
deriving DecidableEq, Repr

/-- The answer to a request: the identifier of a message that was given one, or
nothing, or the reason why not. -/
abbrev Answer := Except ActionError (Option PacketId)

/-- Anything that can happen to an endpoint. -/
inductive Input where
  | packet (p : Packet)
  | decodeError (error : DecodeError)
  | transportClosed
  | timeout
  | close
  | action (a : Action)
deriving DecidableEq, Repr

/-- A request that gives no identifier. -/
def Endpoint.Request.unnumbered (m : Request Unit) : Request (Option PacketId) := do
  m
  return none

/-- The steps in which a request is carried out. -/
def Action.request (now : Instant) : Action → Endpoint.Request (Option PacketId)
  | accept sessionPresent => (Endpoint.Request.accept now sessionPresent).unnumbered
  | reject code => (Endpoint.Request.reject code).unnumbered
  | publish topic payload qos dup retain => Endpoint.Request.publish topic payload qos dup retain
  | retransmit id => (Endpoint.Request.retransmit id).unnumbered
  | subscribeAcknowledge id codes => (Endpoint.Request.subscribeAcknowledge id codes).unnumbered
  | unsubscribeAcknowledge id => (Endpoint.Request.unsubscribeAcknowledge id).unnumbered
  | publishAcknowledge id => (Endpoint.Request.publishAcknowledge id).unnumbered
  | publishReceived id => (Endpoint.Request.publishReceived id).unnumbered
  | publishRelease id => (Endpoint.Request.publishRelease id).unnumbered
  | publishComplete id => (Endpoint.Request.publishComplete id).unnumbered

namespace Endpoint

open Reaction

/-- Carries out a request. -/
def act (now : Instant) (a : Action) (e : Endpoint) : Answer × Reaction :=
  (a.request now).outcome (still e)

/-- What comes of an input. Only requests of the application have an answer. -/
def step (now : Instant) (input : Input) (e : Endpoint) : Option Answer × Reaction :=
  match input with
  | .packet p => (none, e.receive now p)
  | .decodeError error => (none, e.onDecodeError error)
  | .transportClosed => (none, e.onTransportClosed)
  | .timeout => (none, e.onTimeout now)
  | .close => (none, e.close)
  | .action a =>
    let (answer, r) := e.act now a
    (some answer, r)

/-- What comes of inputs at their times, one after the other. -/
def run (e : Endpoint) (inputs : List (Instant × Input)) : Reaction :=
  inputs.foldl (fun r (now, input) => r.andThen fun e => (e.step now input).2) (still e)

end Endpoint
end MqttLink
