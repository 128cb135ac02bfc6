import MqttLink.Fault
/-!
# What an endpoint tells the application

Events, the reasons for which a connection ends, and the reasons for which a
request of the application is turned down.
-/

namespace MqttLink

/-- Why a connection has ended. -/
inductive CloseReason where
  /-- The client sent DISCONNECT. -/
  | graceful
  | protocolError (error : ProtocolError)
  | decodeError (error : DecodeError)
  | keepAliveExpired
  /-- CONNECT was refused with this code. -/
  | rejected (code : ConnectCode)
  /-- CONNECT did not come in time. -/
  | timeout
  | transportClosed
  | applicationClosed
deriving DecidableEq, Repr, Inhabited

namespace CloseReason

/-- Whether the client took its leave (`is_graceful`). -/
def isGraceful : CloseReason → Bool
  | graceful => true
  | _ => false

/-- The reason in words. -/
def message : CloseReason → String
  | graceful => "client disconnected"
  | protocolError e => "protocol error: " ++ e.message
  | decodeError e => "decode error: " ++ e.message
  | keepAliveExpired => "keep-alive expired"
  | rejected code => "connection refused: " ++ code.message
  | timeout => "no CONNECT received in time"
  | transportClosed => "transport closed"
  | applicationClosed => "closed by application"

end CloseReason

/-- Something that the application has to know or to decide. -/
inductive Event where
  /-- A client wants in; the application accepts or rejects it. -/
  | connectRequest (connect : Connect)
  | publishReceived (message : Publish)
  /-- PUBACK has completed an outgoing level-1 exchange. -/
  | publishAcknowledged (id : PacketId)
  /-- PUBREC has come for an outgoing level-2 exchange. -/
  | publishReceivedAck (id : PacketId)
  /-- PUBREL has completed an incoming level-2 exchange. -/
  | publishReleased (id : PacketId)
  /-- PUBCOMP has completed an outgoing level-2 exchange. -/
  | publishCompleted (id : PacketId)
  | subscribeRequest (id : PacketId) (subscriptions : List Subscription)
  | unsubscribeRequest (id : PacketId) (filters : List String)
  | ping
  /-- The connection is gone; `will` is what the client wanted published then. -/
  | closed (reason : CloseReason) (will : Option Will)
deriving DecidableEq, Repr, Inhabited

/-- Why a request of the application is turned down (`EndpointError`). -/
inductive ActionError where
  | notConnected
  | closed
  | noPendingConnect
  | invalidRejectCode
  | packetIdsExhausted
  | zeroPacketId
  | unknownPacketId (id : PacketId)
  | unexpectedStage (id : PacketId)
  | invalidTopic
  | unknownSubscribe (id : PacketId)
  | returnCodeCountMismatch (expected actual : Nat)
  | unknownUnsubscribe (id : PacketId)
deriving DecidableEq, Repr, Inhabited

/-- The failure in words. -/
def ActionError.message : ActionError → String
  | notConnected => "connection not accepted yet"
  | closed => "connection closed"
  | noPendingConnect => "no CONNECT awaiting a decision"
  | invalidRejectCode => "a rejection needs a failure return code"
  | packetIdsExhausted => "all packet identifiers are in flight"
  | zeroPacketId => "packet identifier 0 is invalid"
  | unknownPacketId id => "no exchange in flight for " ++ toString id.toNat
  | unexpectedStage id => "exchange " ++ toString id.toNat ++ " is at another stage"
  | invalidTopic => "invalid topic name"
  | unknownSubscribe id => "no SUBSCRIBE pending for " ++ toString id.toNat
  | returnCodeCountMismatch expected actual =>
    "SUBACK needs " ++ toString expected ++ " return codes, got " ++ toString actual
  | unknownUnsubscribe id => "no UNSUBSCRIBE pending for " ++ toString id.toNat

/-- A failed exchange as the answer to the request that failed. -/
def ExchangeError.asRefusal : ExchangeError → ActionError
  | zeroPacketId => .zeroPacketId
  | unknownPacketId id => .unknownPacketId id
  | unexpectedStage id => .unexpectedStage id
  | packetIdsExhausted => .packetIdsExhausted

end MqttLink
