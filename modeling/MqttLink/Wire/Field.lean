import MqttLink.Topic
import MqttLink.Fault
/-!
# The fields of a packet body

A body is a run of fields: single bytes, two-byte numbers with the high byte
first, blocks of bytes behind a two-byte length, and texts, which are blocks of
UTF-8 without the null character. A `Reader` takes one field off the front of
the bytes that are left; a `Writer` puts one behind the bytes that are there.
These are `read_u16`, `read_prefixed` and `read_string`, and their counterparts
`write_prefixed` and `write_string`.
-/

namespace MqttLink.Wire

/-- Takes a value off the front of a body and leaves the rest. -/
abbrev Reader (α : Type) := StateT Bytes (Except DecodeError) α

/-- Puts a value behind what is in a buffer. What was put there before a failure
stays. -/
abbrev Writer (α : Type) := ExceptT EncodeError (StateM Bytes) α

/-- The first `n` bytes and what follows them, if there are that many. -/
def splitAt? (n : Nat) (body : Bytes) : Option (Bytes × Bytes) :=
  let front := body.take n
  if front.length = n then some (front, body.drop n) else none

theorem splitAt?_eq_some_iff {n : Nat} {body front rest : Bytes} :
    splitAt? n body = some (front, rest) ↔ body = front ++ rest ∧ front.length = n := by
  simp only [splitAt?, Option.ite_none_right_eq_some, Option.some.injEq, Prod.mk.injEq]
  constructor
  · rintro ⟨h, rfl, rfl⟩
    exact ⟨(List.take_append_drop n body).symm, h⟩
  · rintro ⟨rfl, rfl⟩
    simp

namespace Field

/-! ## Reading -/

/-- One byte. -/
def byte : Reader UInt8 := fun body =>
  match body with
  | b :: rest => .ok (b, rest)
  | [] => .error .insufficientData

/-- A two-byte number (`read_u16`). -/
def word : Reader UInt16 := fun body =>
  match body with
  | high :: low :: rest => .ok (UInt16.ofNat (high.toNat * 256 + low.toNat), rest)
  | _ => .error .insufficientData

/-- Bytes behind their length (`read_prefixed`). -/
def block : Reader Bytes := fun body =>
  match word body with
  | .error e => .error e
  | .ok (n, rest) =>
    match splitAt? n.toNat rest with
    | some found => .ok found
    | none => .error .insufficientData

/-- The text that bytes spell, if they spell any. -/
def decodeUtf8 (bytes : Bytes) : Option String :=
  String.fromUTF8? ⟨bytes.toArray⟩

/-- A text (`read_string`). -/
def text : Reader String := fun body =>
  match block body with
  | .error e => .error e
  | .ok (bytes, rest) =>
    match decodeUtf8 bytes with
    | none => .error .invalidUtf8
    | some s => if Topic.hasNull s then .error (.malformed .nullCharacter) else .ok (s, rest)

/-- Everything that is left. -/
def remainder : Reader Bytes := fun body => .ok (body, [])

/-- Reads one item after another until nothing is left. Every item takes at
least one byte, so this ends. -/
def many {α : Type} (item : Reader α)
    (shorter : ∀ {body x rest}, item body = .ok (x, rest) → rest.length < body.length)
    (found : Array α) (body : Bytes) : Except DecodeError (List α) :=
  match body with
  | [] => .ok found.toList
  | b :: tail =>
    match h : item (b :: tail) with
    | .error e => .error e
    | .ok (x, rest) =>
      have := shorter h
      many item shorter (found.push x) rest
termination_by body.length
decreasing_by assumption

/-! ## Writing -/

/-- Bytes as they are. -/
def put (bytes : Bytes) : Writer Unit := modify (· ++ bytes)

/-- One byte. -/
def putByte (b : UInt8) : Writer Unit := put [b]

/-- The bytes of a two-byte number. -/
def wordBytes (n : UInt16) : Bytes := [UInt8.ofNat (n.toNat / 256), UInt8.ofNat (n.toNat % 256)]

/-- A two-byte number. -/
def putWord (n : UInt16) : Writer Unit := put (wordBytes n)

/-- Bytes behind their length, unless two bytes cannot hold it (`write_prefixed`). -/
def putBlock (bytes : Bytes) : Writer Unit :=
  if bytes.length > Topic.maxBytes then throw .stringTooLong
  else do
    putWord (UInt16.ofNat bytes.length)
    put bytes

/-- The bytes that spell a text. -/
def encodeUtf8 (s : String) : Bytes := s.toUTF8.data.toList

/-- A text (`write_string`). -/
def putText (s : String) : Writer Unit := putBlock (encodeUtf8 s)

/-! ## What a reader takes -/

theorem decodeUtf8_encodeUtf8 (s : String) : decodeUtf8 (encodeUtf8 s) = some s := by
  have valid : (⟨s.toUTF8.data.toList.toArray⟩ : ByteArray).IsValidUTF8 := s.isValidUTF8
  simp only [decodeUtf8, encodeUtf8, String.fromUTF8?]
  exact dif_pos valid

theorem word_shorter {body rest : Bytes} {n : UInt16} (h : word body = .ok (n, rest)) :
    rest.length + 2 = body.length := by
  match body, h with
  | _ :: _ :: _, h => cases h; rfl

theorem block_shorter {body front rest : Bytes} (h : block body = .ok (front, rest)) :
    rest.length + 2 + front.length = body.length := by
  unfold block at h
  split at h
  · cases h
  · rename_i n mid hw
    split at h
    · rename_i found hs
      cases h
      have := word_shorter hw
      obtain ⟨rfl, -⟩ := splitAt?_eq_some_iff.1 hs
      simp only [List.length_append] at this
      omega
    · cases h

theorem text_shorter {body rest : Bytes} {s : String} (h : text body = .ok (s, rest)) :
    rest.length + 2 ≤ body.length := by
  unfold text at h
  split at h
  · cases h
  · rename_i front mid hb
    have := block_shorter hb
    split at h
    · cases h
    · split at h
      · cases h
      · cases h
        omega

end Field
end MqttLink.Wire
