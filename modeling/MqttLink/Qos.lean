/-!
# Delivery levels and packet identifiers

A message is delivered at most once, at least once or exactly once. The two
higher levels need an exchange of packets, and every packet of one exchange
carries the same 16-bit identifier.
-/

namespace MqttLink

/-- Identifies the exchange that a packet belongs to. Zero is never valid. -/
abbrev PacketId := UInt16

/-- The delivery level of a message (`QoS`). -/
inductive Qos where
  | atMostOnce
  | atLeastOnce
  | exactlyOnce
deriving DecidableEq, Repr, Inhabited

namespace Qos

/-- The level as it is written on the wire. -/
def toNat : Qos → Nat
  | atMostOnce => 0
  | atLeastOnce => 1
  | exactlyOnce => 2

/-- The level that a number stands for (`from_u8`); there are three. -/
def ofNat? : Nat → Option Qos
  | 0 => some atMostOnce
  | 1 => some atLeastOnce
  | 2 => some exactlyOnce
  | _ => none

/-- The weaker of two levels (`min`). -/
def min (a b : Qos) : Qos := if a.toNat ≤ b.toNat then a else b

/-- Whether messages of this level carry a packet identifier. -/
def needsId : Qos → Bool
  | atMostOnce => false
  | _ => true

@[simp] theorem ofNat?_toNat (q : Qos) : ofNat? q.toNat = some q := by
  cases q <;> rfl

theorem ofNat?_eq_some_iff {n : Nat} {q : Qos} : ofNat? n = some q ↔ n = q.toNat := by
  constructor
  · intro h
    match n, h with
    | 0, h => cases h; rfl
    | 1, h => cases h; rfl
    | 2, h => cases h; rfl
  · rintro rfl
    exact ofNat?_toNat q

theorem toNat_lt (q : Qos) : q.toNat < 3 := by
  cases q <;> decide

end Qos
end MqttLink
