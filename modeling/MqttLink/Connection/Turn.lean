import MqttLink.Connection.Basic
/-!
# Turns

A connection sleeps until something wakes it, deals with that one thing, and
flushes. Which things can wake it depends on its state; when several could, any
may come first. `turn` is one such turn. `settle` takes turns until nothing is
left that could wake the connection, always choosing the first in the order of
`Wake`. A turn is one pass of the loop of `run`.

What comes from outside — bytes, calls, time — only changes what can wake the
connection.
-/

namespace MqttLink

/-- What wakes a connection. -/
inductive Wake where
  /-- So many bytes have come. -/
  | bytes (count : Nat)
  /-- The client will send no more. -/
  | endOfStream
  /-- The oldest event of the backlog can leave it. -/
  | room
  /-- A call waits. -/
  | call
  /-- Nobody is left to call. -/
  | noHandle
  /-- The endpoint's deadline has come. -/
  | deadline
  /-- The broker shuts down. -/
  | shutdown
deriving DecidableEq, Repr

namespace Connection

/-! ## From outside -/

/-- Bytes from the client; refused once it has ended its side or nobody reads. -/
def clientSends (c : Connection) (bytes : Bytes) : Option Connection :=
  if bytes.isEmpty then some c
  else if c.pipe.ended || c.finished then none
  else some { c with pipe := { c.pipe with inbox := c.pipe.inbox ++ bytes } }

/-- The client ends its writing side. -/
def clientEnds (c : Connection) : Connection := { c with pipe := c.pipe.clientEnds }

/-- The client drops the stream. -/
def clientLeaves (c : Connection) : Connection := { c with pipe := c.pipe.clientLeaves }

/-- Time goes by. -/
def elapse (c : Connection) (span : Nat) : Connection := { c with now := c.now + span }

/-- The broker gives the signal to shut down. -/
def signalShutdown (c : Connection) : Connection := { c with shutdownDue := true }

/-- The application makes a request, and is told where to look for the answer
(`request`). -/
def request (c : Connection) (action : Action) : Nat × Connection :=
  let (ticket, desk) := c.desk.request action
  (ticket, { c with desk := if c.finished then desk.shutDown else desk })

/-- The application asks to close (`close`). -/
def requestClose (c : Connection) : Connection :=
  if c.finished then c
  else { c with desk := { c.desk with waiting := c.desk.waiting ++ [.close] } }

/-- The application drops its handle. -/
def dropHandle (c : Connection) : Connection := { c with desk := { c.desk with handled := false } }

/-- The application drops its end of the event channel. -/
def dropEvents (c : Connection) : Connection := { c with channel := c.channel.drop }

/-! ## One turn -/

/-- Whether something can wake the connection now: the guards in the loop of `run`. -/
def canWake (c : Connection) (wake : Wake) : Bool :=
  !c.finished &&
  match wake with
  | .bytes count => c.isReading && 0 < count && count ≤ c.pipe.inbox.length
  | .endOfStream => c.isReading && c.pipe.inbox.isEmpty && c.pipe.ended
  | .room => !c.backlog.isEmpty && (!c.channel.listening || 0 < c.channel.room)
  | .call => c.serving && !c.desk.waiting.isEmpty
  | .noHandle => c.serving && c.desk.waiting.isEmpty && !c.desk.handled
  | .deadline => Endpoint.isDue c.endpoint.deadline c.now
  | .shutdown => c.watching && c.shutdownDue

/-- Moves bytes from the stream to the buffer. -/
def readBytes (c : Connection) (count : Nat) : Connection :=
  { c with
    buffer := c.buffer ++ c.pipe.inbox.take count
    pipe := { c.pipe with inbox := c.pipe.inbox.drop count } }

/-- Moves the oldest event of the backlog to the channel, or finds that nobody
listens. -/
def moveOldest (c : Connection) : Connection :=
  match c.backlog with
  | [] => c
  | event :: rest =>
    if c.channel.listening then
      { c with channel := { c.channel with queue := c.channel.queue ++ [event] }, backlog := rest }
    else c.stopDelivering

/-- Serves the oldest call (`apply`). -/
def serve (c : Connection) : Connection :=
  match c.desk.waiting with
  | [] => c
  | call :: rest =>
    let c := { c with desk := { c.desk with waiting := rest } }
    match call with
    | .close => c.absorb c.endpoint.close
    | .request ticket action =>
      let (answer, r) := c.endpoint.act c.now action
      { c.absorb r with desk := c.desk.answer ticket answer }

/-- Deals with what has woken the connection (`run`). Whatever may have made room
for packets is followed by working off the buffer. -/
def react (c : Connection) : Wake → Connection
  | .bytes count => (c.readBytes count).workOff
  | .endOfStream => c.absorb c.endpoint.onTransportClosed
  | .room => c.moveOldest.workOff
  | .call => c.serve.workOff
  | .noHandle => { c with serving := false }
  | .deadline => c.absorb (c.endpoint.onTimeout c.now)
  | .shutdown => { c with watching := false }.absorb c.endpoint.close

/-- One turn. -/
def turn (c : Connection) (wake : Wake) : Connection := (c.react wake).flush

/-! ## Until nothing is left -/

/-- The first thing that can wake the connection. Bytes are read all at once. -/
def nextWake? (c : Connection) : Option Wake :=
  [.bytes c.pipe.inbox.length, .endOfStream, .room, .call, .noHandle, .deadline, .shutdown].find?
    c.canWake

/-- Takes up to so many turns. -/
def turns : Nat → Connection → Connection
  | 0, c => c
  | n + 1, c =>
    match c.nextWake? with
    | none => c
    | some wake => turns n (c.turn wake)

/-- A bound on the turns that a connection can take without anything new from
outside: every turn reads the bytes that have come, fills room in the channel,
serves a call, or does something that happens only once. -/
def turnsLeft (c : Connection) : Nat :=
  c.pipe.inbox.length + c.channel.room + c.desk.waiting.length + 5

/-- Takes turns until nothing can wake the connection. -/
def settle (c : Connection) : Connection := turns c.turnsLeft c

/-- A connection that has been opened and has nothing to do yet. -/
def launch (setup : ConnectionSetup) : Connection := (start setup).flush.settle

end Connection
end MqttLink
