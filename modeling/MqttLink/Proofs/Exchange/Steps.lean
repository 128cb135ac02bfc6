import Std.Data.TreeMap.Lemmas
import Std.Data.TreeSet.Lemmas
import MqttLink.InFlight
/-!
# What a step of an exchange asks for and what it changes

Every operation on `InFlight` either goes through or is turned down with an error. The lemmas
`…_eq_ok` say for each when it goes through and which exchanges there are then. Nothing outside this
module opens one of these operations.
-/

namespace MqttLink

/-! ## Tables keyed by packet identifiers -/

theorem getElem?_insert_id {α : Type} (t : Std.TreeMap PacketId α) (k id : PacketId) (x : α) :
    (t.insert k x)[id]? = if k = id then some x else t[id]? := by
  simp only [Std.TreeMap.getElem?_insert, Std.LawfulEqCmp.compare_eq_iff_eq]

theorem getElem?_insert_same {α : Type} (t : Std.TreeMap PacketId α) (id : PacketId) (x : α) :
    (t.insert id x)[id]? = some x := by rw [getElem?_insert_id, if_pos rfl]

theorem getElem?_erase_id {α : Type} (t : Std.TreeMap PacketId α) (k id : PacketId) :
    (t.erase k)[id]? = if k = id then none else t[id]? := by
  simp only [Std.TreeMap.getElem?_erase, Std.LawfulEqCmp.compare_eq_iff_eq]

theorem contains_insert_id (t : Std.TreeSet PacketId) (k id : PacketId) :
    (t.insert k).contains id = true ↔ k = id ∨ t.contains id = true := by
  simp only [Std.TreeSet.contains_insert, Bool.or_eq_true, beq_iff_eq,
    Std.LawfulEqCmp.compare_eq_iff_eq]

theorem contains_erase_id (t : Std.TreeSet PacketId) (k id : PacketId) :
    (t.erase k).contains id = true ↔ k ≠ id ∧ t.contains id = true := by
  simp only [Std.TreeSet.contains_erase, Bool.and_eq_true, bne_iff_ne, ne_eq,
    Std.LawfulEqCmp.compare_eq_iff_eq]

namespace InFlight

theorem ok_pair_eq_iff {ε α β : Type} {x x' : α} {y y' : β} :
    (Except.ok (x, y) : Except ε (α × β)) = .ok (x', y') ↔ x' = x ∧ y' = y := by
  simp only [Except.ok.injEq, Prod.mk.injEq]
  exact ⟨fun ⟨h1, h2⟩ => ⟨h1.symm, h2.symm⟩, fun ⟨h1, h2⟩ => ⟨h1.symm, h2.symm⟩⟩

@[simp] theorem outgoing_empty (id : PacketId) : empty.outgoing[id]? = none := by simp [empty]

@[simp] theorem incoming_empty (id : PacketId) : empty.incoming.contains id = false := by
  simp [empty]

/-! ## A free identifier -/

theorem firstFree_free {taken : PacketId → Bool} {tries : Nat} {start id : PacketId}
    (h : firstFree taken tries start = some id) : taken id = false := by
  induction tries generalizing start with
  | zero => cases h
  | succ tries ih =>
    simp only [firstFree] at h
    split at h
    · exact ih h
    · rename_i hfree
      cases h
      simpa using hfree

/-- **A new exchange never takes the identifier of a live one.** -/
theorem freeId?_free {f : InFlight} {id : PacketId} (h : f.freeId? = some id) :
    f.outgoing[id]? = none := by
  simp only [freeId?, Option.ite_none_left_eq_some] at h
  have hfree := firstFree_free h.2
  rw [Std.TreeMap.contains_eq_isSome_getElem?] at hfree
  exact Option.isSome_eq_false_iff.1 hfree |> Option.isNone_iff_eq_none.1

/-! ## Outgoing messages -/

/-- A level-0 message leaves no trace; any other is kept under a free identifier. -/
theorem register_eq_ok {f g : InFlight} {m numbered : Publish} :
    f.register m = .ok (numbered, g) ↔
      (m.qos = .atMostOnce ∧ numbered = { m with packetId := none } ∧ g = f) ∨
      (m.qos ≠ .atMostOnce ∧ ∃ id, f.freeId? = some id ∧
        numbered = { m with packetId := some id } ∧
        g = { f with outgoing := f.outgoing.insert id (.sent numbered), next := successor id }) := by
  unfold register
  by_cases hq : m.qos = .atMostOnce
  · simp only [hq, if_true, ok_pair_eq_iff, true_and, ne_eq, not_true_eq_false, false_and, or_false]
  · simp only [hq, if_false, false_and, ne_eq, not_false_eq_true, true_and, false_or]
    cases hfree : f.freeId? with
    | none => simp
    | some id =>
      simp only [Except.ok.injEq, Prod.mk.injEq, Option.some.injEq, exists_eq_left']
      constructor
      · rintro ⟨rfl, rfl⟩; exact ⟨rfl, rfl⟩
      · rintro ⟨rfl, rfl⟩; exact ⟨rfl, rfl⟩

theorem outgoingAt_eq_ok {f : InFlight} {id : PacketId} {x : Outgoing} :
    f.outgoingAt id = .ok x ↔ id ≠ 0 ∧ f.outgoing[id]? = some x := by
  unfold outgoingAt
  by_cases h0 : id = 0
  · simp [h0]
  · cases hx : f.outgoing[id]? <;> simp [h0]

/-- What an acknowledgment from the client does is decided by the exchange it names. -/
theorem outgoingAt_bind_eq_ok {f : InFlight} {id : PacketId} {α : Type}
    {next : Outgoing → Except ExchangeError α} {y : α} :
    f.outgoingAt id >>= next = .ok y ↔
      id ≠ 0 ∧ ∃ x, f.outgoing[id]? = some x ∧ next x = .ok y := by
  cases h : f.outgoingAt id with
  | error e =>
    constructor
    · rintro ⟨⟩
    · rintro ⟨h0, x, hx, -⟩
      rw [outgoingAt_eq_ok.2 ⟨h0, hx⟩] at h
      cases h
  | ok x =>
    obtain ⟨h0, hx⟩ := outgoingAt_eq_ok.1 h
    simp [bind, Except.bind, h0, hx]

/-- PUBACK and PUBREC both ask for a message that is on its way, each at its own level. -/
theorem outgoingAt_bind_sent {f g after : InFlight} {id : PacketId} {level : Qos}
    {next : Outgoing → Except ExchangeError InFlight}
    (sent : ∀ m, next (.sent m) =
      if m.qos = level then .ok after else .error (.unexpectedStage id))
    (received : next .received = .error (.unexpectedStage id)) :
    f.outgoingAt id >>= next = .ok g ↔
      id ≠ 0 ∧ (∃ m, f.outgoing[id]? = some (.sent m) ∧ m.qos = level) ∧ g = after := by
  rw [outgoingAt_bind_eq_ok]
  constructor
  · rintro ⟨h0, x, hx, hok⟩
    cases x with
    | received => rw [received] at hok; cases hok
    | sent m =>
      rw [sent] at hok
      split at hok
      · rename_i hq
        cases hok
        exact ⟨h0, ⟨m, hx, hq⟩, rfl⟩
      · cases hok
  · rintro ⟨h0, ⟨m, hx, hq⟩, rfl⟩
    exact ⟨h0, .sent m, hx, by rw [sent, if_pos hq]⟩

/-- **PUBACK** goes through for a level-1 message that is on its way, and ends its exchange. -/
theorem onPuback_eq_ok {f g : InFlight} {id : PacketId} :
    f.onPuback id = .ok g ↔
      id ≠ 0 ∧ (∃ m, f.outgoing[id]? = some (.sent m) ∧ m.qos = .atLeastOnce) ∧
        g = { f with outgoing := f.outgoing.erase id } :=
  outgoingAt_bind_sent (fun _ => rfl) rfl

/-- **PUBREC** goes through for a level-2 message that is on its way; PUBCOMP is due then. -/
theorem onPubrec_eq_ok {f g : InFlight} {id : PacketId} :
    f.onPubrec id = .ok g ↔
      id ≠ 0 ∧ (∃ m, f.outgoing[id]? = some (.sent m) ∧ m.qos = .exactlyOnce) ∧
        g = { f with outgoing := f.outgoing.insert id .received } :=
  outgoingAt_bind_sent (fun _ => rfl) rfl

/-- **PUBCOMP** goes through once PUBREC has come, and ends the exchange. -/
theorem onPubcomp_eq_ok {f g : InFlight} {id : PacketId} :
    f.onPubcomp id = .ok g ↔
      id ≠ 0 ∧ f.outgoing[id]? = some .received ∧
        g = { f with outgoing := f.outgoing.erase id } := by
  rw [onPubcomp, outgoingAt_bind_eq_ok]
  constructor
  · rintro ⟨h0, x, hx, hok⟩
    cases x with
    | received => cases hok; exact ⟨h0, hx, rfl⟩
    | sent m => cases hok
  · rintro ⟨h0, hx, rfl⟩
    exact ⟨h0, .received, hx, rfl⟩

/-- Sending again repeats the message, from now on marked as a repeat, or PUBREL. -/
theorem retransmit_eq_ok {f g : InFlight} {id : PacketId} {p : Packet} :
    f.retransmit id = .ok (p, g) ↔
      id ≠ 0 ∧
        ((∃ m, f.outgoing[id]? = some (.sent m) ∧ p = .publish { m with dup := true } ∧
            g = { f with outgoing := f.outgoing.insert id (.sent { m with dup := true }) }) ∨
          (f.outgoing[id]? = some .received ∧ p = .pubrel id ∧ g = f)) := by
  rw [retransmit, outgoingAt_bind_eq_ok]
  constructor
  · rintro ⟨h0, x, hx, hok⟩
    cases x with
    | received => cases hok; exact ⟨h0, .inr ⟨hx, rfl, rfl⟩⟩
    | sent m => cases hok; exact ⟨h0, .inl ⟨m, hx, rfl, rfl⟩⟩
  · rintro ⟨h0, ⟨m, hx, rfl, rfl⟩ | ⟨hx, rfl, rfl⟩⟩
    · exact ⟨h0, .sent m, hx, rfl⟩
    · exact ⟨h0, .received, hx, rfl⟩

/-! ## Incoming messages -/

theorem requireId_eq_ok {m : Publish} {id : PacketId} :
    requireId m = .ok id ↔ m.packetId = some id ∧ id ≠ 0 := by
  unfold requireId
  cases m.packetId with
  | none => simp
  | some k =>
    by_cases h0 : k = 0
    · subst h0
      simp only [if_true, Option.some.injEq]
      exact ⟨by rintro ⟨⟩, fun ⟨h1, h2⟩ => absurd h1.symm h2⟩
    · simp only [h0, if_false, Except.ok.injEq, Option.some.injEq]
      exact ⟨fun h => ⟨h, h ▸ h0⟩, fun h => h.1⟩

/-- The three ways in which a message from the client is taken in. -/
theorem onPublish_eq_ok {f g : InFlight} {m : Publish} {d : Disposition} :
    f.onPublish m = .ok (d, g) ↔
      (m.qos = .atMostOnce ∧ d = .deliver ∧ g = f) ∨
      (m.qos = .atLeastOnce ∧ (∃ id, m.packetId = some id ∧ id ≠ 0) ∧ d = .deliver ∧ g = f) ∨
      (m.qos = .exactlyOnce ∧ ∃ id, m.packetId = some id ∧ id ≠ 0 ∧
        ((f.incoming.contains id = true ∧ d = .duplicate ∧ g = f) ∨
          (f.incoming.contains id = false ∧ d = .deliver ∧
            g = { f with incoming := f.incoming.insert id }))) := by
  unfold onPublish
  cases hq : m.qos with
  | atMostOnce => simp only [ok_pair_eq_iff, reduceCtorEq, true_and, false_and, or_false]
  | atLeastOnce =>
    cases hid : requireId m with
    | error e =>
      have hno : ¬ ∃ id, m.packetId = some id ∧ id ≠ 0 := by
        rintro ⟨id, hk⟩
        rw [requireId_eq_ok.2 hk] at hid
        cases hid
      simp [bind, Except.bind, hno]
    | ok id =>
      have hk : ∃ id, m.packetId = some id ∧ id ≠ 0 := ⟨id, requireId_eq_ok.1 hid⟩
      simp only [bind, Except.bind, pure, Except.pure, ok_pair_eq_iff, hk, reduceCtorEq, false_and,
        true_and, false_or, or_false]
  | exactlyOnce =>
    cases hid : requireId m with
    | error e =>
      have hno : ∀ id, m.packetId = some id → id = 0 := by
        intro id hk
        refine Decidable.byContradiction fun h0 => ?_
        rw [requireId_eq_ok.2 ⟨hk, h0⟩] at hid
        cases hid
      simp only [bind, Except.bind, reduceCtorEq, false_and, true_and, false_or, false_iff]
      rintro ⟨id, hk, h0, -⟩
      exact h0 (hno id hk)
    | ok id =>
      obtain ⟨hk, h0⟩ := requireId_eq_ok.1 hid
      simp only [bind, Except.bind, pure, Except.pure, hk, Option.some.injEq, exists_eq_left',
        reduceCtorEq, false_and, true_and, false_or]
      cases f.incoming.contains id with
      | true =>
        simp only [if_true, ok_pair_eq_iff, ne_eq, h0, not_false_eq_true, true_and,
          Bool.true_eq_false, false_and, or_false]
      | false =>
        simp only [Bool.false_eq_true, if_false, ok_pair_eq_iff, ne_eq, h0, not_false_eq_true,
          true_and, false_and, false_or]

/-- A level-2 message with an identifier never fails. -/
theorem onPublish_two {f : InFlight} {m : Publish} {id : PacketId} (level : m.qos = .exactlyOnce)
    (named : m.packetId = some id) (valid : id ≠ 0) : ∃ d g, f.onPublish m = .ok (d, g) := by
  cases held : f.incoming.contains id with
  | true => exact ⟨_, _, onPublish_eq_ok.2 (.inr (.inr ⟨level, id, named, valid, .inl ⟨held, rfl, rfl⟩⟩))⟩
  | false => exact ⟨_, _, onPublish_eq_ok.2 (.inr (.inr ⟨level, id, named, valid, .inr ⟨held, rfl, rfl⟩⟩))⟩

/-- **PUBREL** goes through while its identifier is held, and gives it back. -/
theorem onPubrel_eq_ok {f g : InFlight} {id : PacketId} :
    f.onPubrel id = .ok g ↔
      id ≠ 0 ∧ f.incoming.contains id = true ∧
        g = { f with incoming := f.incoming.erase id } := by
  unfold onPubrel
  by_cases h0 : id = 0
  · simp [h0]
  · cases f.incoming.contains id <;> simp [h0, eq_comm]

end InFlight
end MqttLink
