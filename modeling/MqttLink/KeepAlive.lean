import MqttLink.Qos
/-!
# Keep-alive

A client that names a keep-alive interval has to send something at least that
often. The broker allows one and a half intervals of silence and then gives the
client up, once. An interval of zero asks for no watch at all. `KeepAliveMonitor`
is the watch.

Instants and spans are counted in milliseconds.
-/

namespace MqttLink

/-- A point in time, in milliseconds. -/
abbrev Instant := Nat

namespace KeepAlive

/-- The silence that an interval of so many seconds allows, in milliseconds
(`expiry_for`). -/
def allowance (interval : UInt16) : Option Nat :=
  if interval = 0 then none else some (interval.toNat * 1500)

/-- The watch over one client (`KeepAliveMonitor`). -/
structure Watch where
  /-- The interval in seconds. -/
  interval : UInt16
  lastActivity : Instant
  /-- Set once the silence has been reported. -/
  expired : Bool
deriving DecidableEq, Repr

namespace Watch

/-- A watch that starts now (`new`). -/
def start (interval : UInt16) (now : Instant) : Watch := ⟨interval, now, false⟩

/-- Whether the watch can expire at all (`is_enabled`). -/
def isEnabled (w : Watch) : Bool := (allowance w.interval).isSome

/-- The client has sent something (`touch`). After expiry this no longer counts. -/
def touch (w : Watch) (now : Instant) : Watch :=
  if w.expired then w else { w with lastActivity := now }

/-- When the silence will have been too long (`deadline`). -/
def deadline (w : Watch) : Option Instant :=
  if w.expired then none else (allowance w.interval).map (w.lastActivity + ·)

/-- Whether the deadline has passed, and the watch after that has been said: it is
said once (`poll_expired`). -/
def poll (w : Watch) (now : Instant) : Bool × Watch :=
  match w.deadline with
  | some due => if due ≤ now then (true, { w with expired := true }) else (false, w)
  | none => (false, w)

end Watch
end KeepAlive
end MqttLink
