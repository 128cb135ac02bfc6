import Mathlib.Algebra.Group.Nat.Defs
import MqttLink.Proofs.Wire.Length
/-!
# What a length field spells

A length field is a run of bytes of which each but the last announces another, at most four of them,
and it spells the number that its groups make. The reader takes nothing else for a length
(`read_value`). Several fields spell the same number, since further groups may be zero; the one that
is written is the shortest (`groups_shortest`).
-/

namespace MqttLink.Wire.Length

/-- The number that groups make, the lowest group first. -/
def number : Bytes → Nat
  | [] => 0
  | b :: field => b.toNat % 128 + 128 * number field

/-- Whether every byte but the last announces another. -/
def closes : Bytes → Bool
  | [] => false
  | b :: field => if continues b then closes field else field.isEmpty

/-- A length field, with the number that it spells. -/
structure Spells (field : Bytes) (n : Nat) : Prop where
  closes : closes field = true
  short : field.length ≤ 4
  number : number field = n

/-- A length field that no other field for the same number is shorter than. -/
structure Shortest (field : Bytes) (n : Nat) : Prop extends Spells field n where
  least : ∀ other, Spells other n → field.length ≤ other.length

theorem closes_more {b : UInt8} {field : Bytes} (more : continues b = true) :
    closes (b :: field) = closes field := by
  rw [closes, if_pos more]

theorem closes_last {b : UInt8} {field : Bytes} (last : continues b = false) :
    closes (b :: field) = true ↔ field = [] := by
  rw [closes, last, if_neg Bool.false_ne_true, List.isEmpty_iff]

theorem Spells.width_pos {field : Bytes} {n : Nat} (h : Spells field n) : 1 ≤ field.length := by
  cases field with
  | nil => cases h.closes
  | cons b field => exact Nat.succ_pos _

theorem number_lt (field : Bytes) : number field < 128 ^ field.length := by
  induction field with
  | nil => decide
  | cons b field ih =>
    rw [number, List.length_cons, Nat.pow_succ]
    omega

/-- A number that a length field spells is not too large to be written. -/
theorem Spells.le {field : Bytes} {n : Nat} (h : Spells field n) : n ≤ maxLength := by
  have four : 128 ^ field.length ≤ 128 ^ 4 := Nat.pow_le_pow_right (by decide) h.short
  have below := number_lt field
  rw [h.number] at below
  exact Nat.le_of_lt_succ (Nat.lt_of_lt_of_le below four)

/-! ## Reading -/

/-- Reading on takes a length field, whose groups count for what their places say. -/
theorem readFrom_value {seen left width : Nat} {sum v : UInt32} {buffer : Bytes}
    (room : seen + left = 4) (below : sum.toNat < weight seen)
    (h : readFrom seen sum left buffer = .value v width) :
    ∃ field rest, buffer = field ++ rest ∧ closes field = true ∧ field.length ≤ left ∧
      width = seen + field.length ∧ v.toNat = sum.toNat + number field * weight seen := by
  induction left generalizing seen sum buffer with
  | zero => cases h
  | succ left ih =>
    cases buffer with
    | nil => cases h
    | cons b tail =>
      have placed := place_toNat b (by omega) below
      rw [readFrom] at h
      cases more : continues b with
      | false =>
        simp only [more, Bool.false_eq_true, if_false, Reading.value.injEq] at h
        obtain ⟨rfl, rfl⟩ := h
        refine ⟨[b], tail, rfl, (closes_last more).2 rfl, Nat.succ_le_succ (Nat.zero_le _), rfl, ?_⟩
        rw [placed, number, number, Nat.mul_zero, Nat.add_zero]
      | true =>
        simp only [more, if_true] at h
        have below' : (sum ||| (group b <<< UInt32.ofNat (7 * seen))).toNat < weight (seen + 1) := by
          have := Nat.mul_le_mul_right (weight seen) (show b.toNat % 128 ≤ 127 by omega)
          rw [placed, weight]
          omega
        obtain ⟨field, rest, rfl, closed, short, rfl, value⟩ := ih (by omega) below' h
        refine ⟨b :: field, rest, rfl, (closes_more more).trans closed, Nat.succ_le_succ short, ?_, ?_⟩
        · rw [List.length_cons]
          omega
        · rw [value, placed, number, weight]
          grind

/-- **What is read as a length is a length field**, and it is read as the number that it spells. -/
theorem read_value {buffer : Bytes} {v : UInt32} {width : Nat} (h : read buffer = .value v width) :
    ∃ field rest, buffer = field ++ rest ∧ field.length = width ∧ Spells field v.toNat := by
  have below : (0 : UInt32).toNat < weight 0 := by decide
  obtain ⟨field, rest, split, closed, short, width, value⟩ := readFrom_value rfl below h
  refine ⟨field, rest, split, by omega, closed, short, ?_⟩
  rw [value, weight, Nat.mul_one]
  exact (Nat.zero_add _).symm

/-! ## Writing -/

theorem groups_spells {v : UInt32} (fits : v.toNat ≤ maxLength) : Spells (groups 4 v) v.toNat := by
  obtain ⟨field, rest, split, width, spells⟩ := read_value (read_groups [] fits)
  have all : rest = [] := by
    have length := congrArg List.length split
    rw [List.append_nil, List.length_append, width, Nat.left_eq_add] at length
    exact List.eq_nil_of_length_eq_zero length
  rw [all, List.append_nil, List.append_nil] at split
  exact split ▸ spells

/-- No field for a number has fewer groups than are written for it. -/
theorem length_groups_le {left : Nat} {v : UInt32} {field : Bytes} (closed : closes field = true)
    (same : number field = v.toNat) : (groups (left + 1) v).length ≤ field.length := by
  induction left generalizing v field with
  | zero =>
    have one : (groups 1 v).length = 1 := by
      simp only [groups]
      split <;> rfl
    cases field with
    | nil => cases closed
    | cons b field => rw [one, List.length_cons]; omega
  | succ left ih =>
    cases field with
    | nil => cases closed
    | cons b field =>
      rw [number] at same
      by_cases last : v.toNat < 128
      · rw [groups_last last, List.length_cons, List.length_cons]
        exact Nat.succ_le_succ (Nat.zero_le _)
      · have more : continues b = true := by
          refine (Bool.eq_false_or_eq_true _).resolve_right fun stops => last ?_
          rw [(closes_last stops).1 closed, number] at same
          omega
        have rest : number field = (v >>> 7).toNat := by
          rw [high_toNat]
          omega
        rw [groups_more (Nat.le_of_not_lt last), List.length_cons, List.length_cons]
        exact Nat.succ_le_succ (ih ((closes_more more).symm.trans closed) rest)

/-- **The length field that is written is the shortest** of those that spell the number. -/
theorem groups_shortest {v : UInt32} (fits : v.toNat ≤ maxLength) : Shortest (groups 4 v) v.toNat where
  toSpells := groups_spells fits
  least _ other := length_groups_le other.closes other.number

end MqttLink.Wire.Length
