import MqttLink.Wire.Length
/-!
# The length field is read as it was written

Words and bytes are taken as natural numbers first: a group is the remainder by 128, a further group
is announced from 128 on, and setting a group into its place is an addition, since the places do not
overlap. `read_groups` is the round trip.
-/

namespace MqttLink.Wire.Length

/-! ## Groups as numbers -/

theorem group_toNat (b : UInt8) : (group b).toNat = b.toNat % 128 := by
  have mask : (0x7F : UInt8).toNat = 2 ^ 7 - 1 := rfl
  rw [group, UInt8.toNat_toUInt32, UInt8.toNat_and, mask, Nat.and_two_pow_sub_one_eq_mod]

/-- The top bit of a byte is set from 128 on. -/
theorem continues_iff (b : UInt8) : continues b = true ↔ 128 ≤ b.toNat := by
  have all : ∀ b : Fin 256, ((UInt8.ofNat b.val &&& 0x80 != 0) = true ↔ 128 ≤ b.val) := by
    decide +kernel
  have same : UInt8.ofNat b.toNat = b := UInt8.ofNat_toNat
  have h := all ⟨b.toNat, b.toNat_lt⟩
  simp only [same] at h
  exact h

/-- What a group counts for behind so many others. -/
def weight : Nat → Nat
  | 0 => 1
  | seen + 1 => 128 * weight seen

theorem weight_le {seen : Nat} (early : seen ≤ 3) : weight seen ≤ 2097152 := by
  match seen, early with
  | 0, _ | 1, _ | 2, _ | 3, _ => decide

/-- A group in its place is added to what lies below. -/
theorem place_toNat {seen : Nat} {sum : UInt32} (b : UInt8) (early : seen ≤ 3)
    (below : sum.toNat < weight seen) :
    (sum ||| (group b <<< UInt32.ofNat (7 * seen))).toNat =
      sum.toNat + b.toNat % 128 * weight seen := by
  have shift : (UInt32.ofNat (7 * seen)).toNat % 32 = 7 * seen := by
    rw [UInt32.toNat_ofNat']
    omega
  have small : b.toNat % 128 ≤ 127 := by omega
  have fits : b.toNat % 128 * weight seen < 2 ^ 32 :=
    Nat.lt_of_le_of_lt (Nat.mul_le_mul small (weight_le early)) (by decide)
  have power : weight seen = 2 ^ (7 * seen) := by
    rcases seen with _ | _ | _ | _ | seen
    · rfl
    · rfl
    · rfl
    · rfl
    · omega
  rw [power] at below fits ⊢
  rw [UInt32.toNat_or, UInt32.toNat_shiftLeft, shift, group_toNat, Nat.shiftLeft_eq, Nat.mod_eq_of_lt fits,
    ← Nat.shiftLeft_eq, Nat.or_comm, ← Nat.shiftLeft_add_eq_or_of_lt below, Nat.add_comm]

theorem high_toNat (v : UInt32) : (v >>> 7).toNat = v.toNat / 128 := by
  rw [UInt32.toNat_shiftRight]
  exact Nat.shiftRight_eq_div_pow _ _

theorem low_toNat (v : UInt32) : ((v &&& 0x7F).toUInt8).toNat = v.toNat % 128 := by
  have mask : (0x7F : UInt32).toNat = 2 ^ 7 - 1 := rfl
  rw [UInt32.toNat_toUInt8, UInt32.toNat_and, mask, Nat.and_two_pow_sub_one_eq_mod]
  omega

theorem marked_toNat {b : UInt8} (h : b.toNat < 128) : (b ||| 0x80).toNat = b.toNat + 128 := by
  have mark : (0x80 : UInt8).toNat = 1 <<< 7 := rfl
  rw [UInt8.toNat_or, mark, Nat.or_comm, ← Nat.shiftLeft_add_eq_or_of_lt h, Nat.add_comm]
  rfl

/-! ## Writing -/

theorem groups_last {left : Nat} {v : UInt32} (h : v.toNat < 128) :
    groups (left + 1) v = [(v &&& 0x7F).toUInt8] := by
  have none : v >>> 7 = 0 := by
    rw [← UInt32.toNat_inj, high_toNat]
    exact Nat.div_eq_of_lt h
  simp only [groups, none, if_true]

theorem groups_more {left : Nat} {v : UInt32} (h : 128 ≤ v.toNat) :
    groups (left + 1) v = ((v &&& 0x7F).toUInt8 ||| 0x80) :: groups left (v >>> 7) := by
  have some : v >>> 7 ≠ 0 := by
    rw [ne_eq, ← UInt32.toNat_inj, high_toNat]
    exact Nat.ne_of_gt (Nat.div_pos h (by decide))
  simp only [groups, some, if_false]

/-! ## Reading -/

/-- The last group ends the field. -/
theorem readFrom_last {seen left : Nat} {sum v : UInt32} (rest : Bytes) (early : seen ≤ 3)
    (below : sum.toNat < weight seen) (last : v.toNat < 128) :
    ∃ total, readFrom seen sum (left + 1) (groups (left + 1) v ++ rest) = .value total (seen + 1) ∧
      total.toNat = sum.toNat + v.toNat * weight seen := by
  have low := low_toNat v
  have stops : continues (v &&& 0x7F).toUInt8 = false := by
    rw [Bool.eq_false_iff, ne_eq, continues_iff]
    omega
  rw [groups_last last, List.cons_append, readFrom, stops]
  refine ⟨_, rfl, ?_⟩
  rw [place_toNat _ early below, low, Nat.mod_mod, Nat.mod_eq_of_lt last]

/-- A group that is not the last is added, and reading goes on. -/
theorem readFrom_more {seen left : Nat} {sum v : UInt32} (rest : Bytes) (early : seen ≤ 3)
    (below : sum.toNat < weight seen) (big : 128 ≤ v.toNat) :
    ∃ sum', readFrom seen sum (left + 1) (groups (left + 1) v ++ rest) =
        readFrom (seen + 1) sum' left (groups left (v >>> 7) ++ rest) ∧
      sum'.toNat = sum.toNat + v.toNat % 128 * weight seen := by
  have byte : ((v &&& 0x7F).toUInt8 ||| 0x80).toNat = v.toNat % 128 + 128 := by
    rw [marked_toNat (by rw [low_toNat]; omega), low_toNat]
  have goes : continues ((v &&& 0x7F).toUInt8 ||| 0x80) = true := by
    rw [continues_iff]
    omega
  rw [groups_more big, List.cons_append, readFrom, goes]
  refine ⟨_, rfl, ?_⟩
  rw [place_toNat _ early below, byte, Nat.add_mod_right, Nat.mod_mod]

/-- What was written is read, in its place above the groups that have been seen. -/
theorem readFrom_groups {seen left : Nat} {sum v : UInt32} (rest : Bytes)
    (room : seen + (left + 1) = 4) (below : sum.toNat < weight seen)
    (fits : v.toNat < weight (left + 1)) :
    ∃ total, readFrom seen sum (left + 1) (groups (left + 1) v ++ rest) =
        .value total (seen + (groups (left + 1) v).length) ∧
      total.toNat = sum.toNat + v.toNat * weight seen := by
  induction left generalizing seen sum v with
  | zero =>
    have last : v.toNat < 128 := fits
    obtain ⟨total, reads, same⟩ := readFrom_last rest (by omega) below last
    exact ⟨total, by rw [reads, groups_last last]; rfl, same⟩
  | succ left ih =>
    by_cases last : v.toNat < 128
    · obtain ⟨total, reads, same⟩ := readFrom_last rest (by omega) below last
      exact ⟨total, by rw [reads, groups_last last]; rfl, same⟩
    · have big : 128 ≤ v.toNat := Nat.le_of_not_lt last
      obtain ⟨sum', more, placed⟩ := readFrom_more rest (by omega) below big
      have below' : sum'.toNat < weight (seen + 1) := by
        have := Nat.mul_le_mul_right (weight seen) (show v.toNat % 128 ≤ 127 by omega)
        rw [placed, weight]
        omega
      have fits' : (v >>> 7).toNat < weight (left + 1) := by
        rw [weight] at fits
        rw [high_toNat]
        omega
      obtain ⟨total, reads, same⟩ := ih (by omega) below' fits'
      refine ⟨total, ?_, ?_⟩
      · rw [more, reads, groups_more big, List.length_cons, Nat.add_right_comm, Nat.add_assoc]
      · have split := Nat.div_add_mod v.toNat 128
        rw [same, placed, high_toNat, weight]
        grind

/-- **The length field is read as it was written**, whatever follows it. -/
theorem read_groups {v : UInt32} (rest : Bytes) (fits : v.toNat ≤ maxLength) :
    read (groups 4 v ++ rest) = .value v (groups 4 v).length := by
  have small : v.toNat < weight 4 := Nat.lt_succ_of_le fits
  have below : (0 : UInt32).toNat < weight 0 := by decide
  obtain ⟨total, reads, same⟩ := readFrom_groups rest rfl below small
  have whole : total = v := UInt32.toNat_inj.1 (by rw [same]; simp [weight])
  rw [read, reads, whole, Nat.zero_add]

end MqttLink.Wire.Length
