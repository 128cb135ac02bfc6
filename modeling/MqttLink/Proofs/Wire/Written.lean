import MqttLink.Proofs.Wire.Layout
import MqttLink.Proofs.Wire.Shortest
/-!
# What comes of writing a packet

A packet is refused as too large on the length that is announced for it; after that it is written whole, or
up to a block that is too long for its own length. What was in the buffer is never looked at (`Appends`), so
a packet comes to the same bytes, or to the same error, wherever it is put (`write_encode`), and cutting a
buffer back to its former length takes away just what a packet that could not be written has left in it.

The announced length has 32 bits, so what is checked and declared is the remainder of the true length by
2 ^ 32. `write_lengths` says for which packets that makes no difference.
-/

namespace MqttLink

open Wire Wire.Field

namespace Wire

variable {α : Type}

/-- A writer that comes to the same whatever is in the buffer, and leaves that where it is. -/
def Appends (w : Writer α) : Prop := ∃ result bytes, ∀ buffer, w buffer = (result, buffer ++ bytes)

theorem Writes.appends {w : Writer α} {x : α} {bytes : Bytes} (h : Writes w x bytes) : Appends w :=
  ⟨_, bytes, h⟩

theorem Stops.appends {w : Writer α} {e : EncodeError} (h : Stops w e) : Appends w := ⟨_, h⟩

end Wire

namespace Packet

/-! ## A packet comes to the same wherever it is put -/

theorem stops_large {p : Packet} (large : Length.maxLength < p.announced.toNat) :
    Stops p.write .packetTooLarge := by
  have refused : Stops (Length.write p.announced) .packetTooLarge := by
    rw [Length.write, if_pos large]
    exact stops_throw _
  exact (writes_byte _).stops (refused.bind _)

theorem stops_long {p : Packet} (small : p.announced.toNat ≤ Length.maxLength) (unfit : ¬ Fit p.blocks) :
    Stops p.write .stringTooLong :=
  (writes_byte _).stops ((writes_length small).stops (p.lays_body.stops unfit))

theorem appends_write (p : Packet) : Appends p.write := by
  by_cases small : p.announced.toNat ≤ Length.maxLength
  · by_cases fit : Fit p.blocks
    · exact (writes_whole small fit).appends
    · exact (stops_long small fit).appends
  · exact (stops_large (Nat.not_le.1 small)).appends

/-- What a packet comes to on the wire: its bytes, or none at all if it cannot be written. -/
def encoding (p : Packet) : Bytes := p.encode.toOption.getD []

/-- **A packet comes to the same wherever it is put.** Either it is written whole, or something is left
behind what was there. -/
theorem write_encode (p : Packet) :
    (p.encode = .ok p.encoding ∧ ∀ buffer, p.write buffer = (.ok (), buffer ++ p.encoding)) ∨
      ∃ e started, p.encode = .error e ∧ p.encoding = [] ∧
        ∀ buffer, p.write buffer = (.error e, buffer ++ started) := by
  obtain ⟨result, bytes, writes⟩ := p.appends_write
  have alone : p.write [] = (result, bytes) := writes []
  cases result with
  | ok u =>
    have whole : p.encode = .ok bytes := by rw [encode, alone]
    have same : p.encoding = bytes := by rw [encoding, whole]; rfl
    exact .inl ⟨same ▸ whole, same ▸ writes⟩
  | error e =>
    have none : p.encode = .error e := by rw [encode, alone]
    exact .inr ⟨e, bytes, none, by rw [encoding, none]; rfl, writes⟩

/-! ## The length of a packet -/

/-- The law of lengths for a packet that is put behind what is in a buffer, if its body counts as `n` bytes
long: whether it is written or why it is not, and the length that is declared in front of its body. -/
structure LengthLaw (p : Packet) (buffer : Bytes) (n : Nat) : Prop where
  written : (p.write buffer).1 = .ok () ↔ Fit p.blocks ∧ n ≤ Length.maxLength
  tooLarge : (p.write buffer).1 = .error .packetTooLarge ↔ Length.maxLength < n
  tooLong : (p.write buffer).1 = .error .stringTooLong ↔ ¬ Fit p.blocks ∧ n ≤ Length.maxLength
  declared : (p.write buffer).1 = .ok () → ∃ field,
    (p.write buffer).2 = buffer ++ p.head :: (field ++ p.layout) ∧ Length.Spells field n

theorem announced_remainder (p : Packet) : p.announced.toNat = p.layout.length % 2 ^ 32 := by
  rw [announced, length_layout, UInt32.toNat_ofNat']

/-- The law holds of the length that is announced. -/
theorem write_announced (p : Packet) (buffer : Bytes) : p.LengthLaw buffer p.announced.toNat := by
  by_cases small : p.announced.toNat ≤ Length.maxLength
  · by_cases fit : Fit p.blocks
    · have writes := writes_whole small fit buffer
      refine ⟨?_, ?_, ?_, fun _ => ⟨_, by rw [writes]; rfl, Length.groups_spells small⟩⟩
      all_goals simp [writes, fit, small]
    · obtain ⟨started, stops⟩ := stops_long small fit
      constructor
      all_goals simp [stops buffer, fit, small]
  · obtain ⟨started, stops⟩ := stops_large (Nat.not_le.1 small)
    constructor
    all_goals simp [stops buffer, small, Nat.not_le.1 small]

/-- A packet that is written comes to something: its first byte, at least. -/
theorem encoding_ne_nil {p : Packet} (whole : p.encode = .ok p.encoding) : p.encoding ≠ [] := by
  rcases p.write_encode with ⟨-, writes⟩ | ⟨e, -, unwritten, -⟩
  · obtain ⟨field, same, -⟩ := (p.write_announced []).declared (by rw [writes])
    have same : p.encoding = p.head :: (field ++ p.layout) := by simpa [writes] using same
    rw [same]
    exact List.cons_ne_nil _ _
  · rw [unwritten] at whole
    cases whole

/-- If the body is too large by either count, the law says the same of both. -/
theorem LengthLaw.of_large {p : Packet} {buffer : Bytes} {n m : Nat} (law : p.LengthLaw buffer n)
    (here : Length.maxLength < n) (there : Length.maxLength < m) : p.LengthLaw buffer m where
  written := law.written.trans (and_congr_right' (iff_of_false (Nat.not_le.2 here) (Nat.not_le.2 there)))
  tooLarge := law.tooLarge.trans (iff_of_true here there)
  tooLong := law.tooLong.trans (and_congr_right' (iff_of_false (Nat.not_le.2 here) (Nat.not_le.2 there)))
  declared ok := absurd (law.written.1 ok).2 (Nat.not_le.2 here)

/-- **A packet is checked, written and declared by the remainder of its length by 2 ^ 32.** So the law holds
of its true length exactly if that is not too large, or leaves a remainder that is too large as well. -/
theorem write_lengths (p : Packet) (buffer : Bytes) :
    p.LengthLaw buffer (p.layout.length % 2 ^ 32) ∧
      (p.LengthLaw buffer p.layout.length ↔
        (Length.maxLength < p.layout.length → Length.maxLength < p.layout.length % 2 ^ 32)) := by
  have law := p.write_announced buffer
  rw [announced_remainder] at law
  refine ⟨law, fun whole large => law.tooLarge.1 (whole.tooLarge.2 large), fun apart => ?_⟩
  by_cases large : Length.maxLength < p.layout.length
  · exact law.of_large (apart large) large
  · have small : p.layout.length < 2 ^ 32 := Nat.lt_of_le_of_lt (Nat.not_lt.1 large) (by decide)
    rwa [Nat.mod_eq_of_lt small] at law

/-- A text of so many letters. -/
def lettered : Nat → String
  | 0 => ""
  | n + 1 => lettered n ++ "a"

theorem size_lettered (n : Nat) : (lettered n).utf8ByteSize = n := by
  induction n with
  | zero => rfl
  | succ n ih => rw [lettered, String.utf8ByteSize_append, ih]; rfl

/-- A request with one filter that is just too long for its own length, and so many that are much longer. -/
def longRequest (more : Nat) : Packet := unsubscribe 1 (lettered 65536 :: List.replicate more (lettered 16777216))

theorem length_longRequest (more : Nat) : (longRequest more).layout.length = 65540 + more * 16777218 := by
  have sizes : total (List.replicate more (2 + 16777216)) = more * (2 + 16777216) := List.sum_replicate_nat
  rw [length_layout, longRequest, bodyLength, List.map_cons, List.map_replicate]
  simp only [size_lettered]
  rw [total, List.foldr_cons, ← total, sizes]
  omega

theorem unfit_longRequest (more : Nat) : ¬ Fit (longRequest more).blocks := fun fit => by
  have first := fit _ List.mem_cons_self
  rw [length_encodeUtf8, size_lettered] at first
  exact absurd first (by decide)

/-- A message with so many bytes of payload. -/
def longMessage (size : Nat) : Packet := publish ⟨false, .atMostOnce, false, "t", none, List.replicate size 0⟩

theorem length_longMessage (size : Nat) : (longMessage size).layout.length = 3 + size := by
  rw [length_layout, longMessage, bodyLength, Publish.bodyLength, List.length_replicate]
  rfl

/-- A request that is too large is refused for its first filter only, and a message that is too large is
written behind a header that declares no body. -/
theorem lengths_wrapped :
    (Length.maxLength < (longRequest 256).layout.length ∧
      ((longRequest 256).write []).1 = .error .stringTooLong) ∧
    Length.maxLength < (longMessage 4294967293).layout.length ∧
      (longMessage 4294967293).write [] = (.ok (), 0x30 :: 0 :: (longMessage 4294967293).layout) := by
  refine ⟨⟨?_, ?_⟩, ?_, ?_⟩
  · rw [length_longRequest]
    decide
  · have law := (longRequest 256).write_announced []
    rw [announced_remainder, length_longRequest] at law
    exact law.tooLong.2 ⟨unfit_longRequest 256, by decide⟩
  · rw [length_longMessage]
    decide
  · have none : (longMessage 4294967293).announced = 0 := by
      rw [← UInt32.toNat_inj, announced_remainder, length_longMessage]
      rfl
    have small : (longMessage 4294967293).announced.toNat ≤ Length.maxLength := by
      rw [none]
      decide
    have fit : Fit (longMessage 4294967293).blocks := fit_singleton.2 (by decide)
    have writes := writes_whole small fit []
    rwa [bytes, none] at writes

end Packet
end MqttLink
