import MqttLink.Proofs.Wire.Grammar
/-!
# Reading by position

A body may be read by a `Cursor`: the body stays whole, and a position in it moves on. Every access to a place
in the body is checked; one to a place that is not there ends in `Stop.outside`. `Follows c r` says that the
cursor `c` finds what the reader `r` finds in what is left from the position on, that it comes to the same
fault, and that its position only moves on and never leaves the body. It goes along with sequences of cursors,
so a cursor that follows a reader never looks at a place that is not there.
-/

namespace MqttLink.Wire

/-- Why reading by position comes to a stop. -/
inductive Stop where
  /-- The bytes are no packet. -/
  | fault (error : DecodeError)
  /-- A place has been looked at that is not there. -/
  | outside
deriving DecidableEq, Repr

/-! ## Places in a row of bytes -/

/-- The byte at a position. -/
def byteAt (bytes : Bytes) (pos : Nat) : Except Stop UInt8 :=
  if h : pos < bytes.length then .ok bytes[pos] else .error .outside

/-- The bytes from a position on. -/
def sliceFrom (bytes : Bytes) (pos : Nat) : Except Stop Bytes :=
  if pos ≤ bytes.length then .ok (bytes.drop pos) else .error .outside

/-- The bytes from one position up to another. -/
def slice (bytes : Bytes) (start stop : Nat) : Except Stop Bytes :=
  if start ≤ stop ∧ stop ≤ bytes.length then .ok ((bytes.take stop).drop start) else .error .outside

theorem byteAt_eq {bytes : Bytes} {pos : Nat} (within : pos < bytes.length) :
    byteAt bytes pos = .ok bytes[pos] := by
  simp [byteAt, within]

theorem sliceFrom_eq {bytes : Bytes} {pos : Nat} (within : pos ≤ bytes.length) :
    sliceFrom bytes pos = .ok (bytes.drop pos) := by
  simp [sliceFrom, within]

theorem slice_eq {bytes : Bytes} {start stop : Nat} (order : start ≤ stop) (within : stop ≤ bytes.length) :
    slice bytes start stop = .ok ((bytes.take stop).drop start) := by
  simp [slice, order, within]

/-! ## Fields at the front of a row of bytes -/

namespace Front

/-- A two-byte number. -/
def word (bytes : Bytes) : Except DecodeError UInt16 :=
  match bytes with
  | high :: low :: _ => .ok (UInt16.ofNat (high.toNat * 256 + low.toNat))
  | _ => .error .insufficientData

/-- Bytes behind their length, and how many bytes both take up. -/
def block (bytes : Bytes) : Except DecodeError (Bytes × Nat) :=
  match word bytes with
  | .error e => .error e
  | .ok n =>
    if 2 + n.toNat ≤ bytes.length then .ok ((bytes.take (2 + n.toNat)).drop 2, 2 + n.toNat)
    else .error .insufficientData

/-- A text, and how many bytes it takes up. -/
def text (bytes : Bytes) : Except DecodeError (String × Nat) :=
  match block bytes with
  | .error e => .error e
  | .ok (content, consumed) =>
    match Field.decodeUtf8 content with
    | none => .error .invalidUtf8
    | some s => if Topic.hasNull s then .error (.malformed .nullCharacter) else .ok (s, consumed)

end Front

/-! ## Cursors -/

/-- Takes a value from a position of a body, and moves the position on. -/
abbrev Cursor (α : Type) := ReaderT Bytes (StateT Nat (Except Stop)) α

namespace Cursor

variable {α β : Type}

/-- A value, or a fault. -/
def lift (result : Except DecodeError α) : Cursor α := fun _ pos =>
  match result with
  | .ok x => .ok (x, pos)
  | .error e => .error (.fault e)

/-- A field at the front of what is left. -/
def taking (front : Bytes → Except DecodeError (α × Nat)) : Cursor α := fun body pos =>
  match sliceFrom body pos with
  | .error e => .error e
  | .ok bytes =>
    match front bytes with
    | .ok (x, consumed) => .ok (x, pos + consumed)
    | .error e => .error (.fault e)

/-- One byte, if there is one. -/
def byte : Cursor UInt8 := fun body pos =>
  if pos ≥ body.length then .error (.fault .insufficientData) else (byteAt body pos).map (·, pos + 1)

def word : Cursor UInt16 := taking fun bytes => (Front.word bytes).map (·, 2)

def block : Cursor Bytes := taking Front.block

def text : Cursor String := taking Front.text

/-- Everything that is left. -/
def remainder : Cursor Bytes := taking fun bytes => .ok (bytes, bytes.length)

/-- A field that may have been left out. -/
def optional (present : Bool) (field : Cursor α) : Cursor (Option α) :=
  if present then do return some (← field) else pure none

/-- The end of the body. -/
def finish (error : DecodeError) : Cursor Unit := fun body pos =>
  if pos ≠ body.length then .error (.fault error) else .ok ((), pos)

/-- Runs a cursor over a whole body. -/
def run (c : Cursor α) (body : Bytes) : Except Stop α := (c body 0).map (·.1)

/-- Reads one item after another while there are bytes left. Every item moves the position on, so this ends. -/
def loop (item : Cursor α)
    (onward : ∀ {body pos x next}, pos < body.length → item body pos = .ok (x, next) → pos < next)
    (found : Array α) (body : Bytes) (pos : Nat) : Except Stop (Array α × Nat) :=
  if h : pos < body.length then
    match taken : item body pos with
    | .error e => .error e
    | .ok (x, next) =>
      have := onward h taken
      loop item onward (found.push x) body next
  else .ok (found, pos)
termination_by body.length - pos

/-! ## Cursors that follow readers -/

/-- What a cursor comes to from a position on, and what a reader comes to there. -/
inductive Together (body : Bytes) (pos : Nat) :
    Except Stop (α × Nat) → Except DecodeError (α × Bytes) → Prop where
  | fault (e : DecodeError) : Together body pos (.error (.fault e)) (.error e)
  | found (x : α) {next : Nat} (ahead : pos ≤ next) (within : next ≤ body.length) :
      Together body pos (.ok (x, next)) (.ok (x, body.drop next))

/-- A cursor finds what a reader finds from its position on. -/
def Follows (c : Cursor α) (r : Reader α) : Prop :=
  ∀ body pos, pos ≤ body.length → Together body pos (c body pos) (r (body.drop pos))

theorem Together.from_earlier {body : Bytes} {start pos : Nat} {a : Except Stop (α × Nat)}
    {b : Except DecodeError (α × Bytes)} (h : Together body pos a b) (earlier : start ≤ pos) :
    Together body start a b := by
  cases h with
  | fault e => exact .fault e
  | found x ahead within => exact .found x (Nat.le_trans earlier ahead) within

theorem bind_cursor (c : Cursor α) (next : α → Cursor β) (body : Bytes) (pos : Nat) :
    (c >>= next) body pos = (c body pos).bind fun found => next found.1 body found.2 := rfl

theorem bind_reader (r : Reader α) (next : α → Reader β) (body : Bytes) :
    (r >>= next) body = (r body).bind fun found => next found.1 found.2 := rfl

theorem Follows.bind {c : Cursor α} {r : Reader α} {next : α → Cursor β} {next' : α → Reader β}
    (first : Follows c r) (second : ∀ x, Follows (next x) (next' x)) : Follows (c >>= next) (r >>= next') := by
  intro body pos within
  have begun := first body pos within
  rw [bind_cursor, bind_reader]
  generalize c body pos = a at begun ⊢
  generalize r (body.drop pos) = b at begun ⊢
  cases begun with
  | fault e => exact .fault e
  | found x ahead inside => exact (second x body _ inside).from_earlier ahead

theorem follows_pure (x : α) : Follows (pure x) (pure x) := by
  intro body pos within
  exact .found x (Nat.le_refl pos) within

theorem follows_lift {result : Except DecodeError α} : Follows (lift result) (StateT.lift result) := by
  intro body pos within
  cases result with
  | error e => exact .fault e
  | ok x => exact .found x (Nat.le_refl pos) within

/-- A test as a value or a fault. -/
def test (ok : Bool) (error : DecodeError) : Except DecodeError Unit := if ok then .ok () else .error error

theorem follows_require (ok : Bool) (error : DecodeError) : Follows (lift (test ok error)) (require ok error) := by
  intro body pos within
  cases ok with
  | false => exact .fault error
  | true => exact .found () (Nat.le_refl pos) within

/-- A value that has to be there, or a fault. -/
def known (found : Option α) (error : DecodeError) : Except DecodeError α :=
  match found with
  | some x => .ok x
  | none => .error error

theorem follows_need (found : Option α) (error : DecodeError) :
    Follows (lift (known found error)) (need found error) := by
  intro body pos within
  cases found with
  | none => exact .fault error
  | some x => exact .found x (Nat.le_refl pos) within

theorem follows_optional {c : Cursor α} {r : Reader α} (h : Follows c r) (present : Bool) :
    Follows (optional present c) (Wire.optional present r) := by
  cases present with
  | false => exact follows_pure none
  | true => exact h.bind fun x => follows_pure (some x)

/-! ## Fields -/

/-- A field at the front of a row of bytes is what a reader takes off it. -/
structure Fronts (front : Bytes → Except DecodeError (α × Nat)) (r : Reader α) : Prop where
  fault : ∀ {bytes e}, front bytes = .error e → r bytes = .error e
  found : ∀ {bytes x consumed}, front bytes = .ok (x, consumed) →
    consumed ≤ bytes.length ∧ r bytes = .ok (x, bytes.drop consumed)

theorem Fronts.follows {front : Bytes → Except DecodeError (α × Nat)} {r : Reader α} (h : Fronts front r) :
    Follows (taking front) r := by
  intro body pos within
  simp only [taking, sliceFrom_eq within]
  cases result : front (body.drop pos) with
  | error e =>
    rw [h.fault result]
    exact .fault e
  | ok found =>
    obtain ⟨x, consumed⟩ := found
    obtain ⟨enough, reads⟩ := h.found result
    have inside : pos + consumed ≤ body.length := by
      rw [List.length_drop] at enough
      omega
    rw [reads, List.drop_drop]
    exact .found x (Nat.le_add_right _ _) inside

theorem follows_byte : Follows byte Field.byte := by
  intro body pos within
  unfold byte
  by_cases inside : pos < body.length
  · rw [if_neg (by omega), byteAt_eq inside, List.drop_eq_getElem_cons inside]
    exact .found _ (Nat.le_succ pos) inside
  · rw [if_pos (by omega), List.drop_of_length_le (by omega)]
    exact .fault .insufficientData

theorem fronts_word : Fronts (fun bytes => (Front.word bytes).map (·, 2)) Field.word where
  fault := by
    intro bytes e h
    match bytes, h with
    | [], h => cases h; rfl
    | [_], h => cases h; rfl
  found := by
    intro bytes n consumed h
    match bytes, h with
    | high :: low :: tail, h => cases h; exact ⟨by simp, rfl⟩

/-- A word is at the front of the bytes that it is taken off. -/
theorem word_eq (bytes : Bytes) : Field.word bytes = (Front.word bytes).map (·, bytes.drop 2) := by
  match bytes with
  | [] | [_] | _ :: _ :: _ => rfl

theorem splitAt?_drop {bytes : Bytes} {n : Nat} (enough : 2 + n ≤ bytes.length) :
    splitAt? n (bytes.drop 2) = some ((bytes.take (2 + n)).drop 2, bytes.drop (2 + n)) := by
  have taken : (bytes.take (2 + n)).drop 2 = (bytes.drop 2).take n := by
    rw [List.drop_take, Nat.add_sub_cancel_left]
  rw [splitAt?_eq_some_iff, taken, ← List.drop_drop, List.take_append_drop, List.length_take, List.length_drop]
  exact ⟨rfl, by omega⟩

theorem splitAt?_short {bytes : Bytes} {n : Nat} (short : ¬ 2 + n ≤ bytes.length) (word : 2 ≤ bytes.length) :
    splitAt? n (bytes.drop 2) = none := by
  unfold splitAt?
  rw [if_neg]
  rw [List.length_take, List.length_drop]
  omega

theorem word_length {bytes : Bytes} {n : UInt16} (h : Front.word bytes = .ok n) : 2 ≤ bytes.length := by
  match bytes, h with
  | _ :: _ :: _, _ => simp

theorem fronts_block : Fronts Front.block Field.block where
  fault := by
    intro bytes e h
    unfold Front.block at h
    rw [Field.block, word_eq]
    cases number : Front.word bytes with
    | error e' =>
      rw [number] at h
      cases h
      rfl
    | ok n =>
      simp only [number] at h
      split at h
      · cases h
      · rename_i short
        cases h
        have none : splitAt? n.toNat (bytes.drop 2) = none := splitAt?_short short (word_length number)
        simp [Except.map, none]
  found := by
    intro bytes content consumed h
    unfold Front.block at h
    rw [Field.block, word_eq]
    cases number : Front.word bytes with
    | error e =>
      simp only [number] at h
      cases h
    | ok n =>
      simp only [number] at h
      split at h
      · rename_i enough
        cases h
        simp [Except.map, splitAt?_drop enough, enough]
      · cases h

theorem fronts_text : Fronts Front.text Field.text where
  fault := by
    intro bytes e h
    unfold Front.text at h
    unfold Field.text
    cases front : Front.block bytes with
    | error e' =>
      rw [front] at h
      cases h
      rw [fronts_block.fault front]
    | ok found =>
      obtain ⟨content, consumed⟩ := found
      rw [(fronts_block.found front).2]
      simp only [front] at h
      cases spelt : Field.decodeUtf8 content with
      | none =>
        simp only [spelt] at h ⊢
        cases h
        rfl
      | some s =>
        simp only [spelt] at h ⊢
        by_cases null : Topic.hasNull s = true
        · rw [if_pos null] at h ⊢
          cases h
          rfl
        · rw [if_neg null] at h
          cases h
  found := by
    intro bytes s consumed h
    unfold Front.text at h
    unfold Field.text
    cases front : Front.block bytes with
    | error e =>
      rw [front] at h
      cases h
    | ok found =>
      obtain ⟨content, n⟩ := found
      obtain ⟨enough, reads⟩ := fronts_block.found front
      rw [reads]
      simp only [front] at h
      cases spelt : Field.decodeUtf8 content with
      | none =>
        simp only [spelt] at h
        cases h
      | some s' =>
        simp only [spelt] at h ⊢
        by_cases null : Topic.hasNull s' = true
        · rw [if_pos null] at h
          cases h
        · rw [if_neg null] at h ⊢
          cases h
          exact ⟨enough, rfl⟩

end Cursor
end MqttLink.Wire
