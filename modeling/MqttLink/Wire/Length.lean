import MqttLink.Wire.Field
/-!
# The remaining-length field

Every packet begins with its kind and the number of bytes that follow. The
number is written in groups of seven bits, the lowest group first; the top bit
of a byte says that another group follows. There are at most four groups, so
268435455 is the largest length. `read_remaining_length` and
`write_remaining_length` go through the groups one by one.
-/

namespace MqttLink.Wire.Length

/-- The largest length that four groups can hold (`MAX_REMAINING_LENGTH`). -/
def maxLength : Nat := 268435455

/-- What the start of a buffer says about the length. -/
inductive Reading where
  /-- The field is not complete yet. -/
  | incomplete
  /-- The fourth byte announces a fifth. -/
  | invalid
  /-- The field holds `value` and is `width` bytes long. -/
  | value (value : UInt32) (width : Nat)
deriving DecidableEq, Repr

/-- The seven payload bits of a byte. -/
def group (b : UInt8) : UInt32 := (b &&& 0x7F).toUInt32

/-- Whether a byte announces another group. -/
def continues (b : UInt8) : Bool := b &&& 0x80 != 0

/-- Reads on after `seen` groups that have given `sum`, with `left` more allowed. -/
def readFrom (seen : Nat) (sum : UInt32) : (left : Nat) → Bytes → Reading
  | 0, _ => .invalid
  | _ + 1, [] => .incomplete
  | left + 1, b :: rest =>
    let total := sum ||| (group b <<< UInt32.ofNat (7 * seen))
    if continues b then readFrom (seen + 1) total left rest else .value total (seen + 1)

/-- Reads the length at the start of a buffer (`read_remaining_length`). -/
def read (buffer : Bytes) : Reading := readFrom 0 0 4 buffer

/-- A length field takes up at least one byte and no more than there are. -/
theorem readFrom_width {seen width left : Nat} {sum v : UInt32} {buffer : Bytes}
    (h : readFrom seen sum left buffer = .value v width) :
    seen < width ∧ width ≤ seen + buffer.length := by
  induction left generalizing seen sum buffer with
  | zero => cases h
  | succ left ih =>
    match buffer, h with
    | b :: rest, h =>
      simp only [readFrom] at h
      split at h
      · have := ih h
        simp only [List.length_cons]
        omega
      · cases h
        simp only [List.length_cons]
        omega

/-- The lowest `left` groups of a number, the lowest first; a group that is the
last one needed has its top bit clear. -/
def groups : (left : Nat) → UInt32 → Bytes
  | 0, _ => []
  | left + 1, v =>
    let low := (v &&& 0x7F).toUInt8
    let high := v >>> 7
    if high = 0 then [low] else (low ||| 0x80) :: groups left high

/-- Writes a length, unless it is too large for the field
(`write_remaining_length`). Gives the width of the field. -/
def write (v : UInt32) : Writer Nat :=
  if v.toNat > maxLength then throw .packetTooLarge
  else do
    Field.put (groups 4 v)
    return (groups 4 v).length

end MqttLink.Wire.Length
