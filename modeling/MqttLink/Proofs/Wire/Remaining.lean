import Mathlib.Data.List.Induction
import MqttLink.Proofs.Wire.Layout
import MqttLink.Proofs.Wire.Shortest
/-!
# The length field in both directions

A number that fits is written with as many groups as it needs, and read back from them (`groups_width`,
`read_groups`). A buffer is read up to the first byte that announces no other: `readFrom_gather` passes the
bytes before it, and what has been put together from them never overlaps the next group (`gather_apart`) and
never grows out of its word (`gather_toNat`). The three outcomes of reading exclude each other, so each of them
is settled by which bytes announce another (`length_field`).
-/

namespace MqttLink.Wire.Length

/-! ## Writing -/

/-- How many groups a number needs. -/
def width (n : Nat) : Nat := if n < 2 ^ 7 then 1 else if n < 2 ^ 14 then 2 else if n < 2 ^ 21 then 3 else 4

theorem length_groups_succ (left : Nat) (v : UInt32) :
    (groups (left + 1) v).length = if v.toNat < 128 then 1 else (groups left (v >>> 7)).length + 1 := by
  by_cases last : v.toNat < 128
  · rw [groups_last last, if_pos last, List.length_singleton]
  · rw [groups_more (Nat.le_of_not_lt last), if_neg last, List.length_cons]

/-- As many groups are written as the number needs. -/
theorem groups_width (v : UInt32) : (groups 4 v).length = width v.toNat := by
  have one (w : UInt32) : (groups 1 w).length = 1 := by
    rw [length_groups_succ 0 w]
    split <;> rfl
  have two (w : UInt32) := length_groups_succ 1 w
  have three (w : UInt32) := length_groups_succ 2 w
  have four := length_groups_succ 3 v
  simp only [one, two, three, high_toNat] at four
  unfold width
  grind

/-- A number that does not fit is refused, and nothing is written. -/
theorem write_large {v : UInt32} (large : maxLength < v.toNat) (buffer : Bytes) :
    write v buffer = (.error .packetTooLarge, buffer) := by
  unfold write
  rw [if_pos large]
  rfl

/-! ## Putting groups together -/

/-- What reading makes of the groups of some bytes, behind `seen` others that have given `sum`. -/
def gather (seen : Nat) (sum : UInt32) : Bytes → UInt32
  | [] => sum
  | b :: bytes => gather (seen + 1) (sum ||| (group b <<< UInt32.ofNat (7 * seen))) bytes

theorem gather_snoc (seen : Nat) (sum : UInt32) (bytes : Bytes) (b : UInt8) :
    gather seen sum (bytes ++ [b]) =
      gather seen sum bytes ||| (group b <<< UInt32.ofNat (7 * (seen + bytes.length))) := by
  induction bytes generalizing seen sum with
  | nil => rfl
  | cons c bytes ih =>
    rw [List.cons_append, gather, ih, gather, List.length_cons, Nat.add_right_comm, Nat.add_assoc]

theorem weight_eq (seen : Nat) : weight seen = 2 ^ (7 * seen) := by
  induction seen with
  | zero => rfl
  | succ seen ih => rw [weight, ih, Nat.mul_succ, Nat.pow_add, Nat.mul_comm]

theorem number_snoc (bytes : Bytes) (b : UInt8) :
    number (bytes ++ [b]) = number bytes + b.toNat % 128 * 2 ^ (7 * bytes.length) := by
  induction bytes with
  | nil => simp [number]
  | cons c bytes ih =>
    have further : 2 ^ (7 * (bytes.length + 1)) = 128 * 2 ^ (7 * bytes.length) := by
      rw [Nat.mul_succ, Nat.pow_add, Nat.mul_comm]
    rw [List.cons_append, number, ih, number, List.length_cons, further]
    grind

/-- The number that bytes make stays below the place of the next group. -/
theorem number_below (bytes : Bytes) : number bytes < 2 ^ (7 * bytes.length) := by
  have below := number_lt bytes
  rwa [show 128 = 2 ^ 7 from rfl, ← Nat.pow_mul] at below

/-- What is put together from at most four groups is the number that they make: no bit is lost. -/
theorem gather_toNat {bytes : Bytes} (short : bytes.length ≤ 4) : (gather 0 0 bytes).toNat = number bytes := by
  induction bytes using List.reverseRecOn with
  | nil => rfl
  | append_singleton bytes b ih =>
    rw [List.length_append, List.length_singleton] at short
    have front := ih (by omega)
    have below : (gather 0 0 bytes).toNat < weight bytes.length := by
      rw [front, weight_eq]
      exact number_below bytes
    rw [gather_snoc, Nat.zero_add, place_toNat b (by omega) below, front, weight_eq, number_snoc]

/-- A group in its place: none of its bits has been shifted out. -/
theorem placed_toNat {seen : Nat} (early : seen ≤ 3) (b : UInt8) :
    (group b <<< UInt32.ofNat (7 * seen)).toNat = b.toNat % 128 * 2 ^ (7 * seen) := by
  have empty : (0 : UInt32).toNat < weight seen := by
    rw [weight_eq]
    exact Nat.two_pow_pos _
  have alone := place_toNat b early empty
  rwa [UInt32.zero_or, UInt32.toNat_zero, Nat.zero_add, weight_eq] at alone

/-- **The next group does not overlap those before it.** -/
theorem gather_apart {bytes : Bytes} (short : bytes.length ≤ 3) (b : UInt8) :
    gather 0 0 bytes &&& (group b <<< UInt32.ofNat (7 * bytes.length)) = 0 := by
  rw [← UInt32.toNat_inj, UInt32.toNat_and, gather_toNat (by omega), placed_toNat short, ← Nat.shiftLeft_eq]
  apply Nat.eq_of_testBit_eq
  intro i
  rw [Nat.testBit_and, Nat.testBit_shiftLeft, UInt32.toNat_zero, Nat.zero_testBit]
  by_cases low : i < 7 * bytes.length
  · simp [Nat.not_le.2 low]
  · have high : number bytes < 2 ^ i :=
      Nat.lt_of_lt_of_le (number_below bytes) (Nat.pow_le_pow_right (by decide) (by omega))
    simp [Nat.testBit_lt_two_pow high]

/-! ## Reading -/

/-- Reading passes bytes that announce another. -/
theorem readFrom_gather {front : Bytes} (goOn : ∀ b ∈ front, continues b = true) (seen : Nat) (sum : UInt32)
    (left : Nat) (rest : Bytes) :
    readFrom seen sum (front.length + left) (front ++ rest) =
      readFrom (seen + front.length) (gather seen sum front) left rest := by
  induction front generalizing seen sum with
  | nil => rw [List.length_nil, Nat.zero_add]; rfl
  | cons b front ih =>
    rw [List.forall_mem_cons] at goOn
    have shift : (b :: front).length + left = front.length + left + 1 := by
      rw [List.length_cons]
      omega
    rw [shift, List.cons_append, readFrom, if_pos goOn.1, ih goOn.2, gather, List.length_cons]
    congr 1
    omega

/-- Reading ends behind the first byte that announces no other, if that comes early enough. -/
theorem read_last {front : Bytes} {b : UInt8} (goOn : ∀ c ∈ front, continues c = true)
    (last : continues b = false) (short : front.length ≤ 3) (rest : Bytes) :
    read (front ++ b :: rest) = .value (gather 0 0 (front ++ [b])) (front.length + 1) := by
  obtain ⟨left, room⟩ : ∃ left, 4 = front.length + (left + 1) := ⟨3 - front.length, by omega⟩
  rw [read, room, readFrom_gather goOn, readFrom, last, gather_snoc]
  simp

theorem read_incomplete {buffer : Bytes} (goOn : ∀ b ∈ buffer, continues b = true) (short : buffer.length < 4) :
    read buffer = .incomplete := by
  obtain ⟨left, room⟩ : ∃ left, 4 = buffer.length + (left + 1) := ⟨3 - buffer.length, by omega⟩
  have passed := readFrom_gather goOn 0 0 (left + 1) []
  rw [List.append_nil, ← room] at passed
  rw [read, passed]
  rfl

theorem read_invalid {buffer : Bytes} (goOn : ∀ b ∈ buffer.take 4, continues b = true)
    (long : 4 ≤ buffer.length) : read buffer = .invalid := by
  have four : (buffer.take 4).length = 4 := by
    rw [List.length_take]
    omega
  have passed := readFrom_gather goOn 0 0 0 (buffer.drop 4)
  rw [four, List.take_append_drop] at passed
  rw [read, passed]
  rfl

/-- Bytes announce one another all the way, or up to a first one that does not. -/
theorem first_last (bytes : Bytes) :
    (∀ b ∈ bytes, continues b = true) ∨
      ∃ front b rest, bytes = front ++ b :: rest ∧ (∀ c ∈ front, continues c = true) ∧ continues b = false := by
  induction bytes with
  | nil => simp
  | cons c bytes ih =>
    by_cases more : continues c = true
    · rcases ih with goOn | ⟨front, b, rest, rfl, goOn, last⟩
      · exact .inl (List.forall_mem_cons.2 ⟨more, goOn⟩)
      · exact .inr ⟨c :: front, b, rest, rfl, List.forall_mem_cons.2 ⟨more, goOn⟩, last⟩
    · exact .inr ⟨[], c, bytes, rfl, by simp, by simpa using more⟩

/-- A length field is a run of bytes that announce another, and one that does not. -/
theorem closes_split {field : Bytes} (closed : closes field = true) :
    ∃ front b, field = front ++ [b] ∧ (∀ c ∈ front, continues c = true) ∧ continues b = false := by
  induction field with
  | nil => simp [closes] at closed
  | cons c field ih =>
    by_cases more : continues c = true
    · rw [closes_more more] at closed
      obtain ⟨front, b, rfl, goOn, last⟩ := ih closed
      exact ⟨c :: front, b, rfl, List.forall_mem_cons.2 ⟨more, goOn⟩, last⟩
    · rw [Bool.not_eq_true] at more
      rw [closes_last more] at closed
      subst closed
      exact ⟨[], c, rfl, by simp, more⟩

/-- The three outcomes of reading: a length field, too few bytes, or too many that announce another. -/
theorem read_cases (buffer : Bytes) :
    (∃ front b rest, buffer = front ++ b :: rest ∧ front.length ≤ 3 ∧ (∀ c ∈ front, continues c = true) ∧
      continues b = false ∧ read buffer = .value (gather 0 0 (front ++ [b])) (front.length + 1)) ∨
    (buffer.length < 4 ∧ (∀ b ∈ buffer, continues b = true) ∧ read buffer = .incomplete) ∨
    (4 ≤ buffer.length ∧ (∀ b ∈ buffer.take 4, continues b = true) ∧ read buffer = .invalid) := by
  rcases first_last (buffer.take 4) with goOn | ⟨front, b, rest, found, goOn, last⟩
  · by_cases short : buffer.length < 4
    · rw [List.take_of_length_le (by omega)] at goOn
      exact .inr (.inl ⟨short, goOn, read_incomplete goOn short⟩)
    · exact .inr (.inr ⟨by omega, goOn, read_invalid goOn (by omega)⟩)
  · have whole : buffer = front ++ b :: (rest ++ buffer.drop 4) := by
      have joined := List.take_append_drop 4 buffer
      rw [found, List.append_assoc, List.cons_append] at joined
      exact joined.symm
    have early : front.length ≤ 3 := by
      have four := congrArg List.length found
      simp only [List.length_take, List.length_append, List.length_cons] at four
      omega
    exact .inl ⟨front, b, _, whole, early, goOn, last, by rw [whole]; exact read_last goOn last early _⟩

/-- What is read as a length is what the length field at the start of the buffer spells. -/
theorem read_eq_value {buffer : Bytes} {v : UInt32} {width : Nat} :
    read buffer = .value v width ↔ width ≤ buffer.length ∧ Spells (buffer.take width) v.toNat := by
  constructor
  · intro h
    obtain ⟨field, rest, rfl, rfl, spells⟩ := read_value h
    rw [List.take_left, List.length_append]
    exact ⟨Nat.le_add_right _ _, spells⟩
  · rintro ⟨within, spells⟩
    have size : (buffer.take width).length = width := List.length_take_of_le within
    obtain ⟨front, b, split, goOn, last⟩ := closes_split spells.closes
    have same : gather 0 0 (buffer.take width) = v := by
      rw [← UInt32.toNat_inj, gather_toNat spells.short, spells.number]
    have short := spells.short
    rw [split, List.length_append, List.length_singleton] at size short
    have first := read_last goOn last (by omega) (buffer.drop width)
    rw [← split, same, size, ← List.singleton_append, ← List.append_assoc, ← split,
      List.take_append_drop] at first
    exact first

theorem read_eq_incomplete {buffer : Bytes} :
    read buffer = .incomplete ↔ buffer.length < 4 ∧ ∀ b ∈ buffer, continues b = true := by
  constructor
  · intro h
    rcases read_cases buffer with ⟨front, b, rest, -, -, -, -, found⟩ | ⟨short, goOn, -⟩ | ⟨-, -, found⟩
    · simp [found] at h
    · exact ⟨short, goOn⟩
    · simp [found] at h
  · rintro ⟨short, goOn⟩
    exact read_incomplete goOn short

theorem read_eq_invalid {buffer : Bytes} :
    read buffer = .invalid ↔ 4 ≤ buffer.length ∧ ∀ b ∈ buffer.take 4, continues b = true := by
  constructor
  · intro h
    rcases read_cases buffer with ⟨front, b, rest, -, -, -, -, found⟩ | ⟨-, -, found⟩ | ⟨long, goOn, -⟩
    · simp [found] at h
    · simp [found] at h
    · exact ⟨long, goOn⟩
  · rintro ⟨long, goOn⟩
    exact read_invalid goOn long

/-- **The length field.** A number that fits is written as the shortest field that spells it, of one to four
bytes, behind whatever is in the buffer, and is read back from that whatever follows; any other is refused, and
nothing is written. In a buffer, the length is what the bytes up to the first of at most four spell that announces
no other; there are too few bytes if and only if there are fewer than four and all of them announce another, and
there is no length if and only if the first four do. While groups are put together, each of them comes to lie
above those before it, and none of its bits is lost. -/
theorem length_field :
    (∀ (v : UInt32) (buffer : Bytes),
      (v.toNat ≤ maxLength → ∃ field, Shortest field v.toNat ∧ field.length = width v.toNat ∧
        write v buffer = (.ok field.length, buffer ++ field) ∧
        ∀ rest, read (field ++ rest) = .value v field.length) ∧
      (maxLength < v.toNat → write v buffer = (.error .packetTooLarge, buffer))) ∧
    (∀ buffer : Bytes,
      (∀ v width, read buffer = .value v width ↔
        width ≤ buffer.length ∧ Spells (buffer.take width) v.toNat) ∧
      (∀ v width, read buffer = .value v width →
        v.toNat ≤ maxLength ∧ v = gather 0 0 (buffer.take width)) ∧
      (read buffer = .incomplete ↔ buffer.length < 4 ∧ ∀ b ∈ buffer, continues b = true) ∧
      (read buffer = .invalid ↔ 4 ≤ buffer.length ∧ ∀ b ∈ buffer.take 4, continues b = true)) ∧
    ∀ (bytes : Bytes) (b : UInt8), bytes.length ≤ 3 →
      let placed := group b <<< UInt32.ofNat (7 * bytes.length)
      gather 0 0 (bytes ++ [b]) = gather 0 0 bytes ||| placed ∧
      gather 0 0 bytes &&& placed = 0 ∧
      placed.toNat = b.toNat % 128 * 2 ^ (7 * bytes.length) ∧
      (gather 0 0 (bytes ++ [b])).toNat = number (bytes ++ [b]) := by
  refine ⟨fun v buffer => ⟨?_, ?_⟩, fun buffer => ⟨?_, ?_, ?_, ?_⟩, ?_⟩
  · intro fits
    exact ⟨groups 4 v, groups_shortest fits, groups_width v, Packet.writes_length fits buffer,
      fun rest => read_groups rest fits⟩
  · intro large
    exact write_large large buffer
  · intro v width
    exact read_eq_value
  · intro v width h
    have spells := (read_eq_value.1 h).2
    refine ⟨spells.le, ?_⟩
    rw [← UInt32.toNat_inj, gather_toNat spells.short, spells.number]
  · exact read_eq_incomplete
  · exact read_eq_invalid
  · intro bytes b short
    have whole : (bytes ++ [b]).length ≤ 4 := by
      rw [List.length_append, List.length_singleton]
      omega
    refine ⟨?_, gather_apart short b, placed_toNat short b, gather_toNat whole⟩
    rw [gather_snoc, Nat.zero_add]

/-- The least number of three groups, the least that does not fit, and a length field that is not the shortest. -/
theorem longer_field :
    (16384 : UInt32).toNat ≤ maxLength ∧ Shortest [0x80, 0x80, 0x01] (16384 : UInt32).toNat ∧
    maxLength < (268435456 : UInt32).toNat ∧ write 268435456 [0x30] = (.error .packetTooLarge, [0x30]) ∧
    read [0x81, 0x80, 0x00, 0xFF] = .value 1 3 ∧
    gather 0 0 [0x81, 0x80] &&& (group 0x85 <<< UInt32.ofNat 14) = 0 := by
  have fits : (16384 : UInt32).toNat ≤ maxLength := by decide
  have large : maxLength < (268435456 : UInt32).toNat := by decide
  obtain ⟨field, shortest, -, puts, -⟩ := (length_field.1 16384 [0x30]).1 fits
  have same : [0x80, 0x80, 0x01] = field := List.append_cancel_left (congrArg Prod.snd puts)
  have refused := (length_field.1 268435456 [0x30]).2 large
  have spells : Spells [0x81, 0x80, 0x00] (1 : UInt32).toNat := ⟨by decide, by decide, by decide⟩
  have found := ((length_field.2.1 [0x81, 0x80, 0x00, 0xFF]).1 1 3).2 ⟨by decide, spells⟩
  have apart := (length_field.2.2 [0x81, 0x80] 0x85 (by decide)).2.1
  exact ⟨fits, same ▸ shortest, large, refused, found, apart⟩

end MqttLink.Wire.Length
