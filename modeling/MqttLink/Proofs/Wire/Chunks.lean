import MqttLink.Wire.Feed
/-!
# Packets do not depend on how their bytes are cut

Once the start of a buffer is a packet, or can be none, further bytes make no difference
(`decode_append`). So the packets in a stream, what is left behind them and the fault at which reading
stops are the same however the stream is cut into chunks (`pushAll_flatten`).

`Peels` says which packets stand at the front of a buffer; reading is peeling until it stops.
-/

namespace MqttLink.Wire

/-! ## Further bytes -/

theorem Length.readFrom_append {seen left : Nat} {sum : UInt32} {buffer : Bytes} (more : Bytes)
    (h : readFrom seen sum left buffer ≠ .incomplete) :
    readFrom seen sum left (buffer ++ more) = readFrom seen sum left buffer := by
  induction left generalizing seen sum buffer with
  | zero => rfl
  | succ left ih =>
    cases buffer with
    | nil => exact absurd rfl h
    | cons b tail =>
      rw [readFrom] at h
      rw [List.cons_append, readFrom, readFrom]
      split at h
      · rename_i goes
        rw [if_pos goes, if_pos goes]
        exact ih h
      · rename_i stops
        rw [if_neg stops, if_neg stops]

theorem splitAt?_append {n : Nat} {body front rest : Bytes} (more : Bytes)
    (h : splitAt? n body = some (front, rest)) : splitAt? n (body ++ more) = some (front, rest ++ more) := by
  obtain ⟨rfl, length⟩ := splitAt?_eq_some_iff.1 h
  exact splitAt?_eq_some_iff.2 ⟨List.append_assoc .., length⟩

theorem Frame.read_append {limit : Nat} {buffer : Bytes} (more : Bytes)
    (h : Frame.read limit buffer ≠ .incomplete) :
    Frame.read limit (buffer ++ more) = Frame.read limit buffer := by
  cases buffer with
  | nil => exact absurd rfl h
  | cons head tail =>
    rw [Frame.read] at h
    rw [List.cons_append, Frame.read, Frame.read]
    cases length : Length.read tail with
    | incomplete => exact absurd (by rw [length]) h
    | invalid =>
      have same : Length.read (tail ++ more) = .invalid :=
        (Length.readFrom_append more (by rw [← Length.read, length]; simp)).trans length
      rw [same]
    | value v width =>
      have same : Length.read (tail ++ more) = .value v width :=
        (Length.readFrom_append more (by rw [← Length.read, length]; simp)).trans length
      have inside := (Length.readFrom_width length).2
      rw [same]
      simp only [length] at h ⊢
      split at h
      · rename_i large
        rw [if_pos large, if_pos large]
      · rename_i within
        rw [if_neg within, if_neg within, List.drop_append_of_le_length (by omega)]
        split at h
        · exact absurd rfl h
        · rename_i body rest split
          rw [splitAt?_append more split]

/-- **Further bytes make no difference** to what has been found at the start of a buffer. -/
theorem decode_append {limit : Nat} {buffer : Bytes} (more : Bytes)
    (h : decode limit buffer ≠ .incomplete) : decode limit (buffer ++ more) = decode limit buffer := by
  have whole : Frame.read limit buffer ≠ .incomplete := by
    intro short
    rw [decode, short] at h
    exact h rfl
  rw [decode, decode, Frame.read_append more whole]

theorem decode_append_of_eq {limit : Nat} {buffer : Bytes} {found : Decoded} (more : Bytes)
    (h : decode limit buffer = found) (whole : found ≠ .incomplete) :
    decode limit (buffer ++ more) = found :=
  (decode_append more (h ▸ whole)).trans h

/-! ## Packets at the front of a buffer -/

/-- The packets that stand at the front of a buffer, and what is left behind them. -/
inductive Peels (limit : Nat) : Bytes → List Packet → Bytes → Prop where
  | done (buffer : Bytes) : Peels limit buffer [] buffer
  | next {buffer rest : Bytes} {p : Packet} {size : Nat} {packets : List Packet}
    (first : decode limit buffer = .packet p size) (others : Peels limit (buffer.drop size) packets rest) :
    Peels limit buffer (p :: packets) rest

namespace Peels

variable {limit : Nat} {buffer middle rest : Bytes} {packets later : List Packet}

theorem append (h : Peels limit buffer packets rest) (more : Bytes) :
    Peels limit (buffer ++ more) packets (rest ++ more) := by
  induction h with
  | done buffer => exact .done (buffer ++ more)
  | next first others ih =>
    rw [← List.drop_append_of_le_length (decode_size first).2] at ih
    exact .next (decode_append_of_eq more first (by simp)) ih

theorem trans (h : Peels limit buffer packets middle) (h' : Peels limit middle later rest) :
    Peels limit buffer (packets ++ later) rest := by
  induction h with
  | done buffer => exact h'
  | next first others ih => exact .next first (ih h')

end Peels

/-! ## Reading until it stops -/

/-- What a buffer starts with at which reading stops. -/
def ending : Option DecodeError → Decoded
  | none => .incomplete
  | some e => .fault e

theorem unpackAfter_packet {limit size : Nat} {buffer : Bytes} {p : Packet} (found : Array Packet)
    (h : decode limit buffer = .packet p size) :
    unpackAfter limit found buffer = unpackAfter limit (found.push p) (buffer.drop size) := by
  rw [unpackAfter]
  split
  · rename_i h'; rw [h] at h'; cases h'
  · rename_i h'; rw [h] at h'; cases h'
  · rename_i h'; rw [h] at h'; cases h'; rfl

theorem unpackAfter_ending {limit : Nat} {buffer : Bytes} {fault : Option DecodeError} (found : Array Packet)
    (h : decode limit buffer = ending fault) : unpackAfter limit found buffer = ⟨found, buffer, fault⟩ := by
  rw [unpackAfter]
  split
  · rename_i h'
    rw [h] at h'
    cases fault with
    | none => rfl
    | some e => cases h'
  · rename_i h'
    rw [h] at h'
    cases fault with
    | none => cases h'
    | some e => cases h'; rfl
  · rename_i h'
    rw [h] at h'
    cases fault <;> cases h'

/-- Packets that stand at the front are the first to be found. -/
theorem Peels.unpackAfter_eq {limit : Nat} {buffer rest : Bytes} {packets : List Packet}
    (h : Peels limit buffer packets rest) (found : List Packet) :
    unpackAfter limit found.toArray buffer = unpackAfter limit (found ++ packets).toArray rest := by
  induction h generalizing found with
  | done buffer => rw [List.append_nil]
  | @next _ _ p _ _ first others ih =>
    rw [unpackAfter_packet _ first, List.push_toArray, ih, List.append_assoc, List.singleton_append]

/-- Every buffer can be peeled until reading stops. -/
theorem peels_ending (limit : Nat) (buffer : Bytes) :
    ∃ packets rest fault, Peels limit buffer packets rest ∧ decode limit rest = ending fault := by
  induction buffer using WellFounded.induction (measure List.length).wf with
  | _ buffer ih =>
    cases h : decode limit buffer with
    | incomplete => exact ⟨[], buffer, none, .done buffer, h⟩
    | fault e => exact ⟨[], buffer, some e, .done buffer, h⟩
    | packet p size =>
      obtain ⟨packets, rest, fault, peels, stops⟩ := ih _ (drop_shorter h)
      exact ⟨p :: packets, rest, fault, .next h peels, stops⟩

/-- **Reading is peeling until it stops.** -/
theorem unpack_peels {limit : Nat} {buffer rest : Bytes} {packets : List Packet}
    {fault : Option DecodeError} (peels : Peels limit buffer packets rest)
    (stops : decode limit rest = ending fault) : unpack limit buffer = ⟨packets.toArray, rest, fault⟩ :=
  (peels.unpackAfter_eq []).trans (unpackAfter_ending _ stops)

/-- There is only one way to peel a buffer until reading stops. -/
theorem Peels.unique {limit : Nat} {buffer rest rest' : Bytes} {packets packets' : List Packet}
    {fault fault' : Option DecodeError} (h : Peels limit buffer packets rest)
    (stops : decode limit rest = ending fault) (h' : Peels limit buffer packets' rest')
    (stops' : decode limit rest' = ending fault') : packets = packets' ∧ rest = rest' ∧ fault = fault' := by
  have same := (unpack_peels h stops).symm.trans (unpack_peels h' stops')
  simpa using same

/-- Something is peeled off if there is a packet to begin with. -/
theorem Peels.some_iff {limit : Nat} {buffer rest : Bytes} {packets : List Packet}
    {fault : Option DecodeError} (h : Peels limit buffer packets rest)
    (stops : decode limit rest = ending fault) :
    packets ≠ [] ↔ ∃ p size, decode limit buffer = .packet p size := by
  cases h with
  | done buffer =>
    rw [stops]
    cases fault <;> simp [ending]
  | next first others => simp [first]

/-! ## Chunk by chunk -/

/-- Takes in chunks one by one. Gives the packets that were read, in order, and the first fault. -/
def Feed.pushAll (feed : Feed) : List Bytes → Feed × List Packet × Option DecodeError
  | [] => (feed, [], none)
  | chunk :: chunks =>
    let (next, packets, fault) := feed.push chunk
    let (last, more, later) := next.pushAll chunks
    (last, packets.toList ++ more, fault.or later)

/-- A stream that has come to a fault only collects bytes. -/
theorem Feed.pushAll_stopped (limit : Nat) (buffer : Bytes) (chunks : List Bytes) :
    pushAll ⟨limit, buffer, true⟩ chunks = (⟨limit, buffer ++ chunks.flatten, true⟩, [], none) := by
  induction chunks generalizing buffer with
  | nil => rw [List.flatten_nil, List.append_nil]; rfl
  | cons chunk chunks ih =>
    simp only [pushAll, push, if_true, ih, List.flatten_cons, List.append_assoc]
    rfl

/-- A stream that has not come to a fault is read as if all of it came at once. -/
theorem Feed.pushAll_running {limit : Nat} {buffer rest : Bytes} {packets : List Packet}
    {fault : Option DecodeError} {chunks : List Bytes} (waits : decode limit buffer = .incomplete)
    (peels : Peels limit (buffer ++ chunks.flatten) packets rest) (stops : decode limit rest = ending fault) :
    pushAll ⟨limit, buffer, false⟩ chunks = (⟨limit, rest, fault.isSome⟩, packets, fault) := by
  induction chunks generalizing buffer packets rest fault with
  | nil =>
    rw [List.flatten_nil, List.append_nil] at peels
    have alone : decode limit buffer = ending none := waits
    obtain ⟨rfl, rfl, rfl⟩ := peels.unique stops (.done buffer) alone
    rfl
  | cons chunk chunks ih =>
    obtain ⟨first, middle, fault₁, peels₁, stops₁⟩ := peels_ending limit (buffer ++ chunk)
    have whole := peels₁.append chunks.flatten
    rw [List.flatten_cons, ← List.append_assoc] at peels
    simp only [pushAll, push, Bool.false_eq_true, if_false, unpack_peels peels₁ stops₁]
    cases fault₁ with
    | none =>
      obtain ⟨later, rest₂, fault₂, peels₂, stops₂⟩ := peels_ending limit (middle ++ chunks.flatten)
      obtain ⟨rfl, rfl, rfl⟩ := peels.unique stops (whole.trans peels₂) stops₂
      simp only [Option.isSome_none, ih stops₁ peels₂ stops₂, Option.none_or]
    | some e =>
      have still : decode limit (middle ++ chunks.flatten) = ending (some e) :=
        decode_append_of_eq _ stops₁ (by simp [ending])
      obtain ⟨rfl, rfl, rfl⟩ := peels.unique stops whole still
      simp only [Option.isSome_some, pushAll_stopped, List.append_nil, Option.some_or]

/-- **Packets do not depend on how their bytes are cut.** However a stream is cut into chunks, the same
packets are read from it, reading stops at the same fault, if at any, and the same bytes are left, as if
it came in one piece. For what has been found at the start of a buffer does not change with what comes
behind it; and a packet takes up at least two bytes, all of which are there. -/
theorem pushAll_flatten (limit : Nat) (chunks : List Bytes) :
    (Feed.empty limit).pushAll chunks = (Feed.empty limit).pushAll [chunks.flatten] ∧
    ∀ buffer,
      (decode limit buffer = .incomplete ∨
        ∀ more, decode limit (buffer ++ more) = decode limit buffer) ∧
      ∀ p size, decode limit buffer = .packet p size → 2 ≤ size ∧ size ≤ buffer.length := by
  have nothing : decode limit [] = .incomplete := rfl
  obtain ⟨packets, rest, fault, peels, stops⟩ := peels_ending limit chunks.flatten
  have piece : Peels limit ([] ++ [chunks.flatten].flatten) packets rest := by simpa using peels
  refine ⟨?_, fun buffer => ⟨?_, fun p size => decode_size⟩⟩
  · rw [Feed.empty, Feed.pushAll_running nothing peels stops, Feed.pushAll_running nothing piece stops]
  · by_cases short : decode limit buffer = .incomplete
    · exact .inl short
    · exact .inr fun more => decode_append more short

/-- A CONNACK cut in its length field and in its body, and a PINGREQ with a flag that it may not have. -/
def cut : List Bytes := [[0x20], [], [0x82], [0x00, 0x01], [0x00, 0xC1], [0x00, 0xC0]]

example : ((Feed.empty 100).pushAll cut).2 = ([.connack true .accepted], some .invalidFlags) := by cbv

end MqttLink.Wire
