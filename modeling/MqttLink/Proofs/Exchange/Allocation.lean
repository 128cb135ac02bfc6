import MqttLink.Proofs.Exchange.Agreement
/-!
# Which identifier a new exchange gets

The identifiers stand in a circle, and `circle` lists them from the one where the search starts. A new
exchange gets the first of them that is not taken, and there is none only if all 65535 are taken. Nothing
bounds the search but the table: `register_allocates` says that it ends after no more than 65535 turns, and
`Allocates` is what comes of it. That no identifier is zero and that the search never starts there is what
the history of a roster adds.
-/

namespace MqttLink

open InFlight (tried successor idSpace)

namespace Roster

/-! ## The circle -/

/-- All identifiers, in cyclic order from one of them on. -/
def circle (n : PacketId) : List PacketId :=
  (List.range' n.toNat (65536 - n.toNat) ++ List.range' 1 (n.toNat - 1)).map UInt16.ofNat

theorem mem_circle {n id : PacketId} (valid : id ≠ 0) : id ∈ circle n := by
  obtain ⟨positive, small⟩ := InFlight.toNat_bounds valid
  refine List.mem_map.2 ⟨id.toNat, ?_, UInt16.ofNat_toNat⟩
  rw [List.mem_append, List.mem_range'_1, List.mem_range'_1]
  omega

/-- The search goes once around the circle. -/
theorem map_tried {n : PacketId} (valid : n ≠ 0) : (List.range idSpace).map (tried n) = circle n := by
  obtain ⟨positive, small⟩ := InFlight.toNat_bounds valid
  refine List.ext_getElem ?_ fun i hi hi' => ?_
  · simp only [circle, List.length_map, List.length_range, List.length_append, List.length_range', idSpace]
    omega
  · have reach : i < 65535 := by simpa [idSpace] using hi
    apply UInt16.toNat_inj.1
    simp only [circle, List.getElem_map, List.getElem_range, InFlight.tried_toNat valid, List.getElem_append,
      List.length_range', List.getElem_range']
    split
    · rw [UInt16.toNat_ofNat']
      omega
    · rw [UInt16.toNat_ofNat']
      omega

theorem length_circle {n : PacketId} (valid : n ≠ 0) : (circle n).length = idSpace := by
  rw [← map_tried valid, List.length_map, List.length_range]

/-- The identifier that the search comes to is the first free one of the circle. -/
theorem find?_circle {n : PacketId} {k : Nat} {taken : PacketId → Bool} (valid : n ≠ 0) (reach : k < idSpace)
    (before : ∀ j < k, taken (tried n j) = true) (free : taken (tried n k) = false) :
    (circle n).find? (fun id => !taken id) = some (tried n k) := by
  rw [← map_tried valid, List.find?_eq_some_iff_getElem]
  refine ⟨by rw [free]; rfl, k, by simpa using reach, by simp, fun j earlier => ?_⟩
  simpa using before j earlier

/-- A table whose keys are identifiers is full exactly if all of them are its keys. -/
theorem idSpace_le_size {α : Type} {table : Std.TreeMap PacketId α}
    (valid : ∀ id, table.contains id = true → id ≠ 0) :
    idSpace ≤ table.size ↔ ∀ id, id ≠ 0 → table.contains id = true := by
  constructor
  · intro full id nonzero
    -- Its keys are different members of the circle, and as many.
    have around : table.keys ⊆ circle 1 := fun k key => mem_circle (valid k (Std.TreeMap.mem_keys.1 key))
    have all : table.keys.Perm (circle 1) :=
      (Std.TreeMap.nodup_keys.subperm around).perm_of_length_le
        (by rw [length_circle (by decide), Std.TreeMap.length_keys]; exact full)
    exact Std.TreeMap.mem_keys.1 (all.mem_iff.2 (mem_circle nonzero))
  · intro all
    by_contra room
    obtain ⟨k, -, -, free⟩ := InFlight.exists_free 1 (Nat.lt_of_not_le room)
    rw [all _ (InFlight.tried_ne_zero (by decide) k)] at free
    cases free

/-! ## A new exchange -/

/-- What comes of a message that needs an identifier: it is turned down, and then nothing changes, or it gets
the first free identifier of the circle. -/
structure Allocates (r : Roster) (m : Publish) (answer : Except ExchangeError Report) (r' : Roster) : Prop where
  exhausted : answer = .error .packetIdsExhausted ↔ ∀ id, id ≠ 0 → r.outbound.contains id = true
  unchanged : answer = .error .packetIdsExhausted → r' = r
  first : answer ≠ .error .packetIdsExhausted → ∃ id,
    (circle r.next).find? (fun id => !r.outbound.contains id) = some id ∧ id ≠ 0 ∧
      answer = .ok (.numbered { m with packetId := some id }) ∧
      r'.outbound[id]? = some ⟨id, .outbound, m.qos, .sent, some { m with packetId := some id }⟩ ∧
      (∀ other, other ≠ id → r'.outbound[other]? = r.outbound[other]?) ∧
      r'.inbound = r.inbound ∧ r'.next = successor id
  /-- Zero is where no search starts. -/
  valid : r.next ≠ 0 ∧ r'.next ≠ 0

/-- **The search for an identifier ends**, and more turns than there are identifiers change nothing. It fails
exactly if all of them are taken, and finds the first free one otherwise. -/
theorem register_allocates {past : List InFlight.Entry} {r : Roster} {m : Publish} (reached : After past r)
    (level : m.qos ≠ .atMostOnce) :
    ∃ answer r', (∀ turns, idSpace ≤ turns → r.perform turns (.register m) = some (answer, r')) ∧
      Allocates r m answer r' := by
  obtain ⟨f, history, agree⟩ := reached.agrees
  have sound := history.sound
  have start : r.next ≠ 0 := agree.next ▸ sound.next
  have keys (id : PacketId) (key : r.outbound.contains id = true) : id ≠ 0 := by
    rw [agree.outbound_contains, Std.TreeMap.contains_eq_isSome_getElem?] at key
    obtain ⟨x, found⟩ := Option.isSome_iff_exists.1 key
    exact sound.outgoing found
  by_cases full : idSpace ≤ r.outbound.size
  · refine ⟨.error .packetIdsExhausted, r, fun turns _ => bind_error (register_full turns level full), ?_⟩
    exact { exhausted := ⟨fun _ => (idSpace_le_size keys).1 full, fun _ => rfl⟩
            unchanged := fun _ => rfl
            first := fun granted => absurd rfl granted
            valid := ⟨start, start⟩ }
  · have room := Nat.lt_of_not_le full
    obtain ⟨k, reach, before, free⟩ := InFlight.exists_free r.next room
    refine ⟨_, _, fun turns enough =>
      bind_ok (register_free (Nat.lt_of_lt_of_le reach enough) level room before free), ?_⟩
    refine { exhausted := ⟨fun turnedDown => ?_, fun all => absurd ((idSpace_le_size keys).2 all) full⟩
             unchanged := fun turnedDown => ?_
             first := fun _ => ⟨tried r.next k, find?_circle start reach before free,
               InFlight.tried_ne_zero start k, rfl, ?_, fun other apart => ?_, rfl, rfl⟩
             valid := ⟨start, InFlight.successor_ne_zero _⟩ }
    · cases turnedDown
    · cases turnedDown
    · exact getElem?_insert_same ..
    · rw [getElem?_insert_id, if_neg apart.symm]

end Roster

/-! ## All around -/

namespace InFlight

variable {past : List Entry} {f g : InFlight} {m : Publish}

/-- What an operation is found to do is one more entry of the history. -/
theorem After.found (h : After past f) {op : Roster.Operation} {answer : Except ExchangeError Roster.Report}
    (does : f.perform op = (answer, g)) : After (past ++ [(op, answer)]) g := by
  have next := h.next op
  rwa [does] at next

/-- A message is given the identifier where the search starts, if that is free. -/
theorem After.registered (h : After past f) (level : m.qos ≠ .atMostOnce) (room : f.outgoing.size < idSpace)
    (free : f.outgoing[f.next]? = none) :
    After (past ++ [(.register m, .ok (.numbered { m with packetId := some f.next }))])
      { f with
        outgoing := f.outgoing.insert f.next (.sent { m with packetId := some f.next })
        next := successor f.next } := by
  have vacant : f.outgoing.contains f.next = false := by
    rw [Std.TreeMap.contains_eq_isSome_getElem?, free]
    rfl
  have first : f.freeId? = some f.next := freeId?_eq_some (k := 0) room (by decide) (by simp) vacant
  refine h.found ?_
  rw [perform, register_eq_ok.2 (.inr ⟨level, f.next, first, rfl, rfl⟩)]
  rfl

theorem After.acknowledged (h : After past f) {id : PacketId} (sent : f.outgoing[id]? = some (.sent m))
    (level : m.qos = .atLeastOnce) :
    After (past ++ [(.puback id, .ok .done)]) { f with outgoing := f.outgoing.erase id } := by
  refine h.found ?_
  rw [perform, onPuback_eq_ok.2 ⟨h.sound.outgoing sent, ⟨m, sent, level⟩, rfl⟩]
  rfl

/-- **Messages that are acknowledged at once take the search on**, by one identifier each, and leave what is in
flight as it is. -/
theorem After.passing_on (h : After past f) (n : Nat) (level : m.qos = .atLeastOnce)
    (room : f.outgoing.size < idSpace) (free : ∀ j < n, f.outgoing[tried f.next j]? = none) :
    ∃ more g, After (past ++ more) g ∧ g.next = tried f.next n ∧ g.outgoing.size = f.outgoing.size ∧
      ∀ id : PacketId, g.outgoing[id]? = f.outgoing[id]? := by
  induction n generalizing past f with
  | zero => exact ⟨[], f, by rwa [List.append_nil], rfl, rfl, fun _ => rfl⟩
  | succ n ih =>
    have vacant : f.outgoing[f.next]? = none := free 0 (Nat.succ_pos n)
    have sent := h.registered (m := m) (by rw [level]; decide) room vacant
    have done := sent.acknowledged (m := { m with packetId := some f.next }) (getElem?_insert_same ..) level
    generalize passed : (f.outgoing.insert f.next (.sent { m with packetId := some f.next })).erase f.next =
      table at done
    have same (id : PacketId) : table[id]? = f.outgoing[id]? := by
      rw [← passed, getElem?_erase_id, getElem?_insert_id]
      split
      · rename_i here
        rw [← here, vacant]
      · rfl
    have size : table.size = f.outgoing.size := by
      rw [← passed, Std.TreeMap.size_erase, Std.TreeMap.size_insert, Std.TreeMap.contains_eq_isSome_getElem?,
        Std.TreeMap.contains_eq_isSome_getElem?, getElem?_insert_same, vacant]
      rfl
    obtain ⟨more, g, reached, next, count, shown⟩ := ih done (size ▸ room) fun j hj => by
      rw [same]
      exact free (j + 1) (Nat.succ_lt_succ hj)
    rw [List.append_assoc, List.append_assoc] at reached
    exact ⟨_, g, reached, next, count.trans size, fun id => (shown id).trans (same id)⟩

end InFlight

namespace Roster

/-- A message of level 1 from the application. -/
def hello : Publish := ⟨false, .atLeastOnce, false, "t", none, []⟩

/-- The same message as it is sent. -/
def numbered : Publish := { hello with packetId := some 1 }

/-- The roster that keeps it. -/
def greeted : Roster := ⟨empty.outbound.insert 1 ⟨1, .outbound, .atLeastOnce, .sent, some numbered⟩, ∅, 2⟩

theorem after_greeted : After [(.register hello, .ok (.numbered numbered))] greeted := by
  have found : (register 1 hello).outcome empty = _ :=
    register_free (k := 0) (by decide) (by decide) (by decide) (by simp) (by decide)
  have registered : empty.perform 1 (.register hello) = some (.ok (.numbered numbered), greeted) :=
    bind_ok found
  exact After.start.next 1 registered

/-- Two messages are kept, under the first two identifiers, and all the others have been given out since. -/
theorem after_around :
    ∃ past r, After past r ∧ r.next = 1 ∧ ∀ id, r.outbound.contains id = true ↔ 2 = id ∨ 1 = id := by
  have first := InFlight.After.start.registered (m := hello) (by decide) (by decide) (by decide)
  have second : InFlight.After _ ⟨(InFlight.empty.outgoing.insert 1 _).insert 2 _, _, 3⟩ :=
    first.registered (m := hello) (by decide) (by decide) (by decide)
  have apart {i j : Nat} (hi : i < 2) (hj : j < 65533) : tried 1 i ≠ tried 3 j := fun same => by
    have again : i = j + 2 :=
      InFlight.tried_inj (Nat.lt_of_lt_of_le hi (by decide)) (Nat.add_lt_add_right hj 2) same
    omega
  obtain ⟨more, f, history, next, -, shown⟩ := second.passing_on 65533 (m := hello) rfl (by decide) fun j hj => by
    have one : 1 ≠ tried 3 j := apart (i := 0) (by decide) hj
    have two : 2 ≠ tried 3 j := apart (i := 1) (by decide) hj
    rw [getElem?_insert_id, if_neg two, getElem?_insert_id, if_neg one, InFlight.outgoing_empty]
  obtain ⟨r, reached, agree⟩ := history.agrees
  refine ⟨_, r, reached, ?_, fun id => ?_⟩
  · rw [agree.next, next, ← UInt16.toNat_inj, InFlight.tried_toNat (by decide)]
    rfl
  · rw [agree.outbound_contains, Std.TreeMap.contains_eq_isSome_getElem?, shown, getElem?_insert_id,
      getElem?_insert_id, InFlight.outgoing_empty]
    by_cases one : 1 = id <;> by_cases two : 2 = id <;> simp [one, two]

/-- After that the search starts at the first of the two identifiers, skips both and comes to the third. -/
theorem around_allocates :
    ∃ past r, After past r ∧ hello.qos ≠ .atMostOnce ∧
      r.next = 1 ∧ r.outbound.contains 1 = true ∧ r.outbound.contains 2 = true ∧
      ∃ answer r', (∀ turns, idSpace ≤ turns → r.perform turns (.register hello) = some (answer, r')) ∧
        Allocates r hello answer r' ∧ answer = .ok (.numbered { hello with packetId := some 3 }) := by
  obtain ⟨past, r, reached, start, holds⟩ := after_around
  obtain ⟨answer, r', ends, allocates⟩ := register_allocates reached (m := hello) (by decide)
  have one : r.outbound.contains 1 = true := (holds 1).2 (.inr rfl)
  have two : r.outbound.contains 2 = true := (holds 2).2 (.inl rfl)
  have free : r.outbound.contains 3 = false := by
    rw [← Bool.not_eq_true, holds]
    decide
  have granted : answer ≠ .error .packetIdsExhausted := fun refused =>
    Bool.false_ne_true (free.symm.trans (allocates.exhausted.1 refused 3 (by decide)))
  have skipped : ∀ j < 2, r.outbound.contains (tried 1 j) = true := fun j below =>
    match j, below with
    | 0, _ => one
    | 1, _ => two
  have third : (circle 1).find? (fun id => !r.outbound.contains id) = some 3 :=
    find?_circle (k := 2) (by decide) (by decide) skipped free
  obtain ⟨id, found, -, told, -⟩ := allocates.first granted
  rw [start, third] at found
  cases found
  exact ⟨past, r, reached, by decide, start, one, two, answer, r', ends, allocates, told⟩

end Roster
end MqttLink
