import MqttLink.Wire.Decode
import MqttLink.Wire.Encode
/-!
# Fields are read as they were written

`Writes w x bytes` says that the writer `w` puts `bytes` behind whatever is in its buffer, and gives
`x`; `Reads r bytes x` that the reader `r` takes exactly `bytes` off the front of whatever it is given,
and gives `x`. Both go along with sequences of writers and readers, so a round trip of a packet is put
together from those of its fields. A block may be too long for the length before it: `Lays w blocks bytes`
says that the writer `w` puts down `bytes` if all of `blocks` are short enough, and else stops half way.
-/

namespace MqttLink.Wire

variable {α β : Type}

/-! ## Writers -/

/-- A writer that goes through, with what it adds to the buffer. -/
def Writes (w : Writer α) (x : α) (bytes : Bytes) : Prop :=
  ∀ buffer, w buffer = (.ok x, buffer ++ bytes)

theorem writes_pure (x : α) : Writes (pure x) x [] := fun buffer => by
  rw [List.append_nil]; rfl

theorem bind_writer (w : Writer α) (next : α → Writer β) (buffer : Bytes) :
    (w >>= next) buffer = ExceptT.bindCont next (w buffer).1 (w buffer).2 := rfl

theorem Writes.bind {w : Writer α} {next : α → Writer β} {x : α} {y : β} {front back : Bytes}
    (first : Writes w x front) (second : Writes (next x) y back) :
    Writes (w >>= next) y (front ++ back) := by
  intro buffer
  rw [bind_writer, first buffer, ← List.append_assoc, ← second (buffer ++ front)]
  rfl

/-- A writer that stops, with what it has put into the buffer by then left there. -/
def Stops (w : Writer α) (e : EncodeError) : Prop :=
  ∃ started, ∀ buffer, w buffer = (.error e, buffer ++ started)

theorem stops_throw (e : EncodeError) : Stops (throw e : Writer α) e :=
  ⟨[], fun buffer => by rw [List.append_nil]; rfl⟩

theorem Stops.bind {w : Writer α} {e : EncodeError} (first : Stops w e) (next : α → Writer β) :
    Stops (w >>= next) e := by
  obtain ⟨started, stops⟩ := first
  refine ⟨started, fun buffer => ?_⟩
  rw [bind_writer, stops buffer]
  rfl

theorem Writes.stops {w : Writer α} {next : α → Writer β} {x : α} {front : Bytes} {e : EncodeError}
    (first : Writes w x front) (second : Stops (next x) e) : Stops (w >>= next) e := by
  obtain ⟨started, stops⟩ := second
  refine ⟨front ++ started, fun buffer => ?_⟩
  rw [bind_writer, first buffer, ← List.append_assoc, ← stops (buffer ++ front)]
  rfl

/-! ## Writers of blocks -/

/-- Blocks that are short enough for a length of two bytes. -/
def Fit (blocks : List Bytes) : Prop := ∀ b ∈ blocks, b.length ≤ Topic.maxBytes

theorem fit_nil : Fit [] := fun _ => nofun

theorem fit_singleton {b : Bytes} : Fit [b] ↔ b.length ≤ Topic.maxBytes := List.forall_mem_singleton

theorem fit_append {front back : List Bytes} : Fit (front ++ back) ↔ Fit front ∧ Fit back :=
  List.forall_mem_append

theorem fit_optional {blocks : α → List Bytes} {x : Option α} (h : ∀ a, x = some a → Fit (blocks a)) :
    Fit (x.elim [] blocks) := by
  cases x with
  | none => exact fit_nil
  | some a => exact h a rfl

/-- A writer that lays out `bytes`, in which `blocks` stand behind lengths of two bytes. It goes through
if they all fit; else it stops, since one of them does not. -/
structure Lays (w : Writer Unit) (blocks : List Bytes) (bytes : Bytes) : Prop where
  whole : Fit blocks → Writes w () bytes
  stops : ¬ Fit blocks → Stops w .stringTooLong

/-- A writer that always goes through. -/
theorem Writes.lays {w : Writer Unit} {bytes : Bytes} (h : Writes w () bytes) : Lays w [] bytes where
  whole _ := h
  stops unfit := absurd fit_nil unfit

theorem Lays.bind {v w : Writer Unit} {blocks others : List Bytes} {front back : Bytes}
    (first : Lays v blocks front) (second : Lays w others back) :
    Lays (v >>= fun _ => w) (blocks ++ others) (front ++ back) where
  whole fit := (first.whole (fit_append.1 fit).1).bind (second.whole (fit_append.1 fit).2)
  stops unfit := by
    by_cases fit : Fit blocks
    · have unfit : ¬ Fit others := fun fit' => unfit (fit_append.2 ⟨fit, fit'⟩)
      exact (first.whole fit).stops (second.stops unfit)
    · exact (first.stops fit).bind _

/-- A field that may be left out. -/
theorem lays_optional {w : α → Writer Unit} {blocks : α → List Bytes} {bytes : α → Bytes}
    (h : ∀ a, Lays (w a) (blocks a) (bytes a)) (x : Option α) :
    Lays (x.forM w) (x.elim [] blocks) (x.elim [] bytes) := by
  cases x with
  | none => exact (writes_pure ()).lays
  | some a => exact h a

theorem lays_list {w : α → Writer Unit} {blocks : α → List Bytes} {bytes : α → Bytes}
    (h : ∀ a, Lays (w a) (blocks a) (bytes a)) (l : List α) :
    Lays (l.forM w) (l.flatMap blocks) (l.flatMap bytes) := by
  induction l with
  | nil => exact (writes_pure ()).lays
  | cons a l ih => exact (h a).bind ih

/-! ## Readers -/

/-- A reader that goes through, with what it takes off the front. -/
def Reads (r : Reader α) (bytes : Bytes) (x : α) : Prop := ∀ rest, r (bytes ++ rest) = .ok (x, rest)

theorem bind_reads {r : Reader α} {x : α} {front : Bytes} (first : Reads r front x)
    (next : α → Reader β) (rest : Bytes) : (r >>= next) (front ++ rest) = next x rest := by
  have step : (r >>= next) (front ++ rest) = (r (front ++ rest)).bind fun (a, rest) => next a rest := rfl
  rw [step, first]
  rfl

theorem Reads.bind {r : Reader α} {next : α → Reader β} {x : α} {y : β} {front back : Bytes}
    (first : Reads r front x) (second : Reads (next x) back y) :
    Reads (r >>= next) (front ++ back) y := by
  intro rest
  rw [List.append_assoc, bind_reads first, second]

theorem reads_pure (x : α) : Reads (pure x) [] x := fun _ => rfl

/-- What is made of the last field. -/
theorem Reads.result {r : Reader α} {bytes : Bytes} {x : α} (last : Reads r bytes x) (f : α → β) :
    Reads (do return f (← r)) bytes (f x) := fun rest =>
  bind_reads last (fun a => pure (f a)) rest

theorem reads_require {ok : Bool} (error : DecodeError) (h : ok = true) :
    Reads (require ok error) [] () := fun rest => by
  rw [require, h]; rfl

theorem reads_need {found : Option α} {x : α} (error : DecodeError) (h : found = some x) :
    Reads (need found error) [] x := fun rest => by
  rw [h]; rfl

theorem reads_lift {result : Except DecodeError α} {x : α} (h : result = .ok x) :
    Reads (StateT.lift result) [] x := fun rest => by
  rw [h]; rfl

/-- A field that may have been left out. -/
theorem reads_optional {r : Reader α} {bytes : α → Bytes} {x : Option α}
    (h : ∀ a, x = some a → Reads r (bytes a) a) :
    Reads (optional x.isSome r) (x.elim [] bytes) x := by
  cases x with
  | none => exact reads_pure none
  | some a => exact (h a rfl).result some

/-- A body is read field by field. -/
theorem Reads.andThen {r : Reader α} {next : α → Reader β} {x : α} {y : β} {front back : Bytes}
    (first : Reads r front x) (others : readBody (next x) back = .ok y) :
    readBody (r >>= next) (front ++ back) = .ok y := by
  rw [readBody] at others ⊢
  rw [bind_reads first]
  exact others

/-- A test takes nothing off the body. -/
theorem Reads.check {r : Reader α} {next : α → Reader β} {x : α} {y : β} {body : Bytes}
    (first : Reads r [] x) (others : readBody (next x) body = .ok y) :
    readBody (r >>= next) body = .ok y :=
  first.andThen others

/-- Items are read one after the other. -/
theorem many_reads {item : Reader α} {bytes : α → Bytes} {l : List α}
    (shorter : ∀ {body x rest}, item body = .ok (x, rest) → rest.length < body.length)
    (h : ∀ a ∈ l, Reads item (bytes a) a) (found : Array α) :
    Field.many item shorter found (l.flatMap bytes) = .ok (found.toList ++ l) := by
  induction l generalizing found with
  | nil => simp [Field.many]
  | cons a l ih =>
    have first := h a List.mem_cons_self (l.flatMap bytes)
    rw [List.flatMap_cons]
    generalize bytes a ++ l.flatMap bytes = body at first ⊢
    cases body with
    | nil => exact absurd (shorter first) (Nat.not_lt_zero _)
    | cons b tail =>
      rw [Field.many]
      split
      · rename_i failed; rw [first] at failed; cases failed
      · rename_i x rest taken
        rw [first] at taken
        cases taken
        rw [ih fun a' ha => h a' (List.mem_cons_of_mem a ha)]
        simp

theorem many_layout {item : Reader α} {bytes : α → Bytes} {l : List α}
    (shorter : ∀ {body x rest}, item body = .ok (x, rest) → rest.length < body.length)
    (h : ∀ a ∈ l, Reads item (bytes a) a) : Field.many item shorter #[] (l.flatMap bytes) = .ok l :=
  many_reads shorter h #[]

namespace Field

/-! ## Numbers, blocks and texts -/

theorem reads_byte (b : UInt8) : Reads byte [b] b := fun _ => rfl

theorem writes_byte (b : UInt8) : Writes (putByte b) () [b] := fun _ => rfl

theorem writes_put (bytes : Bytes) : Writes (put bytes) () bytes := fun _ => rfl

theorem writes_word (n : UInt16) : Writes (putWord n) () (wordBytes n) := fun _ => rfl

theorem reads_word (n : UInt16) : Reads word (wordBytes n) n := by
  intro rest
  have small := n.toNat_lt
  have high : (UInt8.ofNat (n.toNat / 256)).toNat = n.toNat / 256 := by
    rw [UInt8.toNat_ofNat', Nat.mod_eq_of_lt (by omega)]
  have low : (UInt8.ofNat (n.toNat % 256)).toNat = n.toNat % 256 := by
    rw [UInt8.toNat_ofNat', Nat.mod_mod]
  simp only [wordBytes, List.cons_append, word, high, low, Nat.div_add_mod', UInt16.ofNat_toNat]
  rfl

/-- Bytes behind their length, as they are laid out. -/
def blockBytes (bytes : Bytes) : Bytes := wordBytes (UInt16.ofNat bytes.length) ++ bytes

theorem lays_block (bytes : Bytes) : Lays (putBlock bytes) [bytes] (blockBytes bytes) where
  whole fit := by
    rw [putBlock, if_neg (Nat.not_lt.2 (fit bytes List.mem_cons_self))]
    exact (writes_word _).bind (writes_put bytes)
  stops unfit := by
    have long : Topic.maxBytes < bytes.length :=
      Nat.not_le.1 fun short => unfit (fit_singleton.2 short)
    rw [putBlock, if_pos long]
    exact stops_throw _

theorem reads_block {bytes : Bytes} (short : bytes.length ≤ Topic.maxBytes) :
    Reads block (blockBytes bytes) bytes := by
  intro rest
  have length : (UInt16.ofNat bytes.length).toNat = bytes.length := by
    rw [UInt16.toNat_ofNat', Nat.mod_eq_of_lt (Nat.lt_of_le_of_lt short (by decide))]
  have found : splitAt? bytes.length (bytes ++ rest) = some (bytes, rest) :=
    splitAt?_eq_some_iff.2 ⟨rfl, rfl⟩
  rw [blockBytes, List.append_assoc, block, reads_word]
  simp only [length, found]

/-- A text that the wire can carry. -/
structure Carries (s : String) : Prop where
  short : s.utf8ByteSize ≤ Topic.maxBytes
  clean : Topic.hasNull s = false

/-- A text, as it is laid out. -/
def textBytes (s : String) : Bytes := blockBytes (encodeUtf8 s)

theorem length_encodeUtf8 (s : String) : (encodeUtf8 s).length = s.utf8ByteSize := rfl

theorem lays_text (s : String) : Lays (putText s) [encodeUtf8 s] (textBytes s) := lays_block (encodeUtf8 s)

theorem reads_text {s : String} (carries : Carries s) : Reads text (textBytes s) s := by
  intro rest
  rw [text, textBytes, reads_block (length_encodeUtf8 s ▸ carries.short)]
  simp only [decodeUtf8_encodeUtf8, carries.clean, Bool.false_eq_true, if_false]

/-! ## How much room a field takes -/

theorem length_wordBytes (n : UInt16) : (wordBytes n).length = 2 := rfl

theorem length_blockBytes (bytes : Bytes) : (blockBytes bytes).length = 2 + bytes.length := by
  rw [blockBytes, List.length_append, length_wordBytes]

theorem length_textBytes (s : String) : (textBytes s).length = 2 + s.utf8ByteSize := by
  rw [textBytes, length_blockBytes, length_encodeUtf8]

end Field
end MqttLink.Wire
