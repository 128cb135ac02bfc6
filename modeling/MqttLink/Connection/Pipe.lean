import MqttLink.Packet
import MqttLink.Endpoint.Action
/-!
# What a connection stands between

On one side is the client, at the far end of a byte stream. On the other is the
application, which takes events out of a bounded channel (`MqttEndpoint`) and hands
in calls (`EndpointHandle`), each of which gets one answer.
-/

namespace MqttLink

/-! ## The client's byte stream -/

/-- A byte stream in both directions. -/
structure Pipe where
  /-- What the client has sent and the broker has not read. -/
  inbox : Bytes
  /-- Set once the client will send no more. -/
  ended : Bool
  /-- Set once the client has dropped the stream: nothing can be written any more. -/
  gone : Bool
  /-- What the broker has written and the client has not taken. -/
  outbox : Bytes
  /-- Set once the broker will write no more. -/
  shut : Bool
deriving DecidableEq, Repr

namespace Pipe

/-- A stream on which nothing has happened. -/
def fresh : Pipe := ⟨[], false, false, [], false⟩

/-- The client ends its writing side; it can still read. -/
def clientEnds (p : Pipe) : Pipe := { p with ended := true }

/-- The client drops the stream. -/
def clientLeaves (p : Pipe) : Pipe := { p with ended := true, gone := true, outbox := [] }

/-- The client takes what has been written to it. -/
def collect (p : Pipe) : Bytes × Pipe := (p.outbox, { p with outbox := [] })

end Pipe

/-! ## The application's event channel -/

/-- A channel of limited size from the connection to the application. -/
structure Channel where
  /-- The events that wait to be taken, oldest first. -/
  queue : List Event
  capacity : Nat
  /-- Cleared once the application has dropped its end. -/
  listening : Bool
deriving DecidableEq, Repr

namespace Channel

/-- An empty channel. It has room for at least one event. -/
def fresh (capacity : Nat) : Channel := ⟨[], max capacity 1, true⟩

/-- How many more events fit. -/
def room (ch : Channel) : Nat := ch.capacity - ch.queue.length

/-- The application takes the oldest event (`next_event`). -/
def take? (ch : Channel) : Option (Event × Channel) :=
  match ch.queue with
  | [] => none
  | event :: rest => some (event, { ch with queue := rest })

/-- The application drops its end, and with it what it has not taken. -/
def drop (ch : Channel) : Channel := { ch with queue := [], listening := false }

end Channel

/-! ## Calls of the application -/

/-- What the application asks of a connection (`Command`). -/
inductive Call where
  /-- A request, whose answer will be found under the ticket. -/
  | request (ticket : Nat) (action : Action)
  /-- To close, which has no answer. -/
  | close
deriving DecidableEq, Repr

/-- The calls that have not been served, and the answers to those that have. -/
structure Desk where
  /-- Oldest first. -/
  waiting : List Call
  answers : List (Nat × Answer)
  /-- The ticket of the next request. -/
  nextTicket : Nat
  /-- Cleared once the application has dropped its handle. -/
  handled : Bool

namespace Desk

/-- A desk at which nobody has called. -/
def fresh : Desk := ⟨[], [], 0, true⟩

/-- Notes the answer to a request. -/
def answer (d : Desk) (ticket : Nat) (a : Answer) : Desk :=
  { d with answers := (ticket, a) :: d.answers }

/-- The answer found under a ticket. -/
def answerTo? (d : Desk) (ticket : Nat) : Option Answer := d.answers.lookup ticket

/-- Queues a request and says under which ticket to look for its answer. -/
def request (d : Desk) (action : Action) : Nat × Desk :=
  (d.nextTicket,
    { d with
      waiting := d.waiting ++ [.request d.nextTicket action]
      nextTicket := d.nextTicket + 1 })

/-- Nobody is there to serve any more: every request that waits is told so. -/
def shutDown (d : Desk) : Desk :=
  let tickets := d.waiting.filterMap fun
    | .request ticket _ => some ticket
    | .close => none
  { d with
    waiting := []
    answers := tickets.foldl (fun found ticket => (ticket, .error .closed) :: found) d.answers }

end Desk
end MqttLink
