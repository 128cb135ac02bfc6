import MqttLink.Wire.Field
import MqttLink.Wire.Length
/-!
# Frames

On the wire a packet is one head byte, the length of the body, and the body.
The head holds the packet's kind in its upper half and four flags in its lower
half. `Frame.read` finds the frame at the start of a buffer, or reports that it
is not complete yet, or that it never will be one: the first half of `decode`.
-/

namespace MqttLink.Wire

/-- A packet taken apart as far as its kind does not matter. -/
structure Frame where
  head : UInt8
  body : Bytes
deriving DecidableEq, Repr

namespace Frame

/-- The number of the packet's kind. -/
def kindCode (f : Frame) : Nat := f.head.toNat / 16

/-- The four flags next to the kind, as a number. -/
def flags (f : Frame) : Nat := f.head.toNat % 16

/-- What the start of a buffer holds. -/
inductive Reading where
  /-- More bytes are needed. -/
  | incomplete
  /-- No more bytes can make this a frame. -/
  | fault (error : DecodeError)
  /-- A whole frame that takes up `size` bytes. -/
  | frame (frame : Frame) (size : Nat)

/-- Reads the frame at the start of a buffer. A body of more than `limit` bytes
is refused as soon as its length is known. -/
def read (limit : Nat) (buffer : Bytes) : Reading :=
  match buffer with
  | [] => .incomplete
  | head :: tail =>
    match Length.read tail with
    | .incomplete => .incomplete
    | .invalid => .fault .invalidRemainingLength
    | .value length width =>
      if length.toNat > limit then .fault .packetTooLarge
      else
        match splitAt? length.toNat (tail.drop width) with
        | none => .incomplete
        | some (body, _) => .frame ⟨head, body⟩ (1 + width + length.toNat)

/-- A frame takes up at least its head and one byte of length, and no more than
there is. -/
theorem read_size {limit size : Nat} {buffer : Bytes} {f : Frame}
    (h : read limit buffer = .frame f size) : 2 ≤ size ∧ size ≤ buffer.length := by
  match buffer, h with
  | head :: tail, h =>
    simp only [read] at h
    split at h
    · cases h
    · cases h
    · rename_i length width hl
      have hw := Length.readFrom_width hl
      split at h
      · cases h
      · split at h
        · cases h
        · rename_i body rest hs
          cases h
          obtain ⟨hd, hb⟩ := splitAt?_eq_some_iff.1 hs
          have := congrArg List.length hd
          simp only [List.length_drop, List.length_append, List.length_cons] at this ⊢
          omega

end Frame
end MqttLink.Wire
