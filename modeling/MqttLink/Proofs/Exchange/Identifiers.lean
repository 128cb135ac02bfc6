import Mathlib.Data.List.Nodup
import Mathlib.Data.List.Perm.Subperm
import Mathlib.Data.Nat.Find
import Std.Data.DTreeMap.Internal.Model
import MqttLink.Proofs.Exchange.Steps
/-!
# The search for a free identifier

Identifiers are tried in cyclic order, and there are 65535 tries. These meet as many different
identifiers, so they cannot all be taken unless so many exchanges are live: `freeId?_eq_none` says
that a free identifier is found exactly if the table has room.
-/

namespace MqttLink

/-! ## Taking out what is not there -/

section Absent

open Std.DTreeMap.Internal

variable {α : Type} {β : α → Type} [Ord α]

theorem balance_same {size : Nat} {k : α} {v : β k} {l r l' r' : Impl α β}
    (whole : (Impl.inner size k v l r).Balanced) (left : l' = l) (right : r' = r) {hl hr h} :
    Impl.balance k v l' r' hl hr h = .inner size k v l r := by
  subst left right
  exact Impl.balance_eq_inner whole

theorem impl_erase_absent {k : α} {t : Impl α β} (whole : t.Balanced) (absent : t.contains k = false) :
    (t.erase k whole).impl = t := by
  induction t with
  | leaf => rfl
  | inner size k' v l r ihl ihr =>
    unfold Impl.contains at absent
    unfold Impl.erase
    cases side : compare k k' with
    | lt =>
      simp only [side] at absent ⊢
      rw [Impl.balanceRErase_eq_balance]
      exact balance_same whole (ihl whole.left absent) rfl
    | gt =>
      simp only [side] at absent ⊢
      rw [Impl.balanceLErase_eq_balance]
      exact balance_same whole rfl (ihr whole.right absent)
    | eq => simp only [side, Bool.true_eq_false] at absent

/-- A set from which an identifier is taken that it does not hold is the very same set. -/
theorem erase_absent {t : Std.TreeSet PacketId} {id : PacketId} (absent : t.contains id = false) :
    t.erase id = t := by
  obtain ⟨⟨⟨inner, wf⟩⟩⟩ := t
  have unchanged : (inner.erase id wf.balanced).impl = inner := impl_erase_absent wf.balanced absent
  have wrapped : ∀ (other : Impl PacketId fun _ => Unit) (wf' : other.WF), other = inner →
      (⟨⟨⟨other, wf'⟩⟩⟩ : Std.TreeSet PacketId) = ⟨⟨⟨inner, wf⟩⟩⟩ := by
    rintro _ _ rfl
    rfl
  exact wrapped _ (Impl.WF.erase wf) unchanged

end Absent

namespace InFlight

/-! ## The cyclic order -/

/-- The identifier that is tried after so many others. -/
def tried (start : PacketId) : Nat → PacketId
  | 0 => start
  | k + 1 => tried (successor start) k

theorem toNat_bounds {id : PacketId} (valid : id ≠ 0) : 0 < id.toNat ∧ id.toNat ≤ 65535 :=
  ⟨Nat.pos_of_ne_zero fun h => valid (UInt16.toNat_inj.1 h), Nat.le_of_lt_succ id.toNat_lt⟩

theorem successor_toNat {id : PacketId} (valid : id ≠ 0) :
    (successor id).toNat = id.toNat % 65535 + 1 := by
  obtain ⟨positive, small⟩ := toNat_bounds valid
  unfold successor
  by_cases last : id = 65535
  · subst last; rfl
  · have below : id.toNat ≠ 65535 := fun h => last (UInt16.toNat_inj.1 h)
    rw [if_neg last, UInt16.toNat_add, UInt16.toNat_one]
    omega

theorem successor_ne_zero (id : PacketId) : successor id ≠ 0 := by
  by_cases zero : id = 0
  · subst zero; decide
  · intro h
    have := successor_toNat zero
    rw [h, UInt16.toNat_zero] at this
    omega

theorem tried_toNat {start : PacketId} (valid : start ≠ 0) (k : Nat) :
    (tried start k).toNat = (start.toNat - 1 + k) % 65535 + 1 := by
  induction k generalizing start with
  | zero =>
    obtain ⟨positive, small⟩ := toNat_bounds valid
    rw [tried]
    omega
  | succ k ih =>
    obtain ⟨positive, small⟩ := toNat_bounds valid
    rw [tried, ih (successor_ne_zero start), successor_toNat valid]
    omega

theorem tried_ne_zero {start : PacketId} (valid : start ≠ 0) (k : Nat) : tried start k ≠ 0 := by
  intro zero
  have := tried_toNat valid k
  rw [zero, UInt16.toNat_zero] at this
  omega

/-- As many tries as there are identifiers meet each of them once. -/
theorem tried_inj {start : PacketId} {i j : Nat} (hi : i < idSpace) (hj : j < idSpace)
    (same : tried start i = tried start j) : i = j := by
  unfold idSpace at hi hj
  by_cases valid : start = 0
  · -- The search never starts at zero, but meets zero only once if it does.
    subst valid
    have later : ∀ k, tried 0 (k + 1) = tried 1 k := fun _ => rfl
    have value : ∀ k, (tried 1 k).toNat = k % 65535 + 1 := fun k => by
      rw [tried_toNat (by decide)]
      simp
    have nonzero : ∀ k, (tried 0 (k + 1)).toNat ≠ (tried 0 0).toNat := fun k => by
      rw [later, value, tried, UInt16.toNat_zero]
      omega
    match i, j with
    | 0, 0 => rfl
    | 0, j + 1 => exact absurd (congrArg UInt16.toNat same.symm) (nonzero j)
    | i + 1, 0 => exact absurd (congrArg UInt16.toNat same) (nonzero i)
    | i + 1, j + 1 =>
      have equal := congrArg UInt16.toNat same
      rw [later, later, value, value] at equal
      omega
  · have equal := congrArg UInt16.toNat same
    rw [tried_toNat valid, tried_toNat valid] at equal
    omega

/-! ## The search -/

/-- The search finds the first identifier it meets that is not taken. -/
theorem firstFree_eq_some {taken : PacketId → Bool} {tries k : Nat} {start : PacketId} (reach : k < tries)
    (before : ∀ j < k, taken (tried start j) = true) (free : taken (tried start k) = false) :
    firstFree taken tries start = some (tried start k) := by
  induction tries generalizing start k with
  | zero => exact absurd reach (Nat.not_lt_zero k)
  | succ tries ih =>
    rw [firstFree]
    cases k with
    | zero => rw [tried] at free ⊢; rw [free]; rfl
    | succ k =>
      have first : taken start = true := before 0 (Nat.succ_pos k)
      rw [if_pos first, tried]
      exact ih (Nat.lt_of_succ_lt_succ reach) (fun j below => before (j + 1) (Nat.succ_lt_succ below)) free

/-- **A table with room leaves an identifier free**, and the tries reach it. -/
theorem exists_free {α : Type} {table : Std.TreeMap PacketId α} (start : PacketId)
    (room : table.size < idSpace) :
    ∃ k < idSpace, (∀ j < k, table.contains (tried start j) = true) ∧
      table.contains (tried start k) = false := by
  have some : ∃ k, k < idSpace ∧ table.contains (tried start k) = false := by
    by_contra none
    -- All that was tried is a key of the table, and all of it is different.
    have different : ((List.range idSpace).map (tried start)).Nodup :=
      List.nodup_range.map_on fun i hi j hj same =>
        tried_inj (List.mem_range.1 hi) (List.mem_range.1 hj) same
    have keys : (List.range idSpace).map (tried start) ⊆ table.keys := by
      intro id hid
      obtain ⟨k, hk, rfl⟩ := List.mem_map.1 hid
      refine Std.TreeMap.mem_keys.2 (Std.TreeMap.contains_iff_mem.1 ?_)
      refine eq_true_of_ne_false fun free => none ⟨k, List.mem_range.1 hk, free⟩
    have fits := (different.subperm keys).length_le
    rw [List.length_map, List.length_range, Std.TreeMap.length_keys] at fits
    exact absurd fits (Nat.not_le_of_lt room)
  obtain ⟨below, free⟩ := Nat.find_spec some
  refine ⟨Nat.find some, below, fun j earlier => ?_, free⟩
  exact eq_true_of_ne_false fun vacant => Nat.find_min some earlier ⟨Nat.lt_trans earlier below, vacant⟩

theorem freeId?_eq_some {f : InFlight} {k : Nat} (room : f.outgoing.size < idSpace) (reach : k < idSpace)
    (before : ∀ j < k, f.outgoing.contains (tried f.next j) = true)
    (free : f.outgoing.contains (tried f.next k) = false) : f.freeId? = some (tried f.next k) := by
  rw [freeId?, if_neg (Nat.not_le.2 room)]
  exact firstFree_eq_some reach before free

/-- The identifier that a search comes to: the first of those it tries that is not taken. -/
theorem freeId?_tried {f : InFlight} {id : PacketId} (found : f.freeId? = some id) :
    ∃ k < idSpace, id = tried f.next k ∧ f.outgoing.contains id = false ∧
      ∀ j < k, f.outgoing.contains (tried f.next j) = true := by
  by_cases full : idSpace ≤ f.outgoing.size
  · rw [freeId?, if_pos full] at found
    cases found
  · have room := Nat.lt_of_not_le full
    obtain ⟨k, reach, before, free⟩ := exists_free f.next room
    rw [freeId?_eq_some room reach before free] at found
    cases found
    exact ⟨k, reach, rfl, free, before⟩

/-- **A free identifier is found as long as there is one.** -/
theorem freeId?_eq_none {f : InFlight} : f.freeId? = none ↔ idSpace ≤ f.outgoing.size := by
  constructor
  · intro missed
    by_contra room
    obtain ⟨k, reach, before, free⟩ := exists_free f.next (Nat.lt_of_not_le room)
    rw [freeId?_eq_some (Nat.lt_of_not_le room) reach before free] at missed
    cases missed
  · intro full
    exact if_pos full

end InFlight
end MqttLink
