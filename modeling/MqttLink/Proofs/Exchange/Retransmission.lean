import Mathlib.Data.List.DropRight
import MqttLink.Proofs.Exchange.Allocation
/-!
# What is kept of an exchange, and what can be sent again

A record is kept under its own identifier, and its stage says whether there is a message with it. So a
step can be repeated at any time. The message is the one that was registered last under the identifier
(`LastRegistered`), whatever has come in between, and only the mark of a repeat is added to it.

To ask for a repeat leaves that mark behind and nothing else: `Marked` relates the exchanges with it to the
exchanges without it, every operation keeps the two related, and only a look at the record itself tells them
apart.
-/

namespace MqttLink

open Roster (Operation Report)

namespace InFlight

/-! ## What history leaves behind -/

/-- The identifier that an operation has given out. -/
def Entry.assigned : Entry → Option PacketId
  | (_, .ok (.numbered m)) => m.packetId
  | _ => none

/-- The message that was registered last under an identifier. -/
def LastRegistered (past : List Entry) (id : PacketId) (m : Publish) : Prop :=
  ∃ earlier later,
    past = earlier ++ (.register m, .ok (.numbered { m with packetId := some id })) :: later ∧
      ∀ e ∈ later, Entry.assigned e ≠ some id

theorem LastRegistered.snoc {past : List Entry} {id : PacketId} {m : Publish} {e : Entry}
    (h : LastRegistered past id m) (apart : e.assigned ≠ some id) : LastRegistered (past ++ [e]) id m := by
  obtain ⟨earlier, later, rfl, others⟩ := h
  refine ⟨earlier, later ++ [e], by simp, fun e' member => ?_⟩
  obtain old | rfl := (List.mem_append.1 member).imp_right List.mem_singleton.1
  · exact others e' old
  · exact apart

/-- **A message is kept as it was registered**, but for the mark of a repeat. -/
theorem After.lastRegistered {past : List Entry} {f : InFlight} (h : After past f) {id : PacketId}
    {kept : Publish} (sent : f.outgoing[id]? = some (.sent kept)) :
    ∃ m, LastRegistered past id m ∧ m.qos ≠ .atMostOnce ∧
      { kept with dup := true } = { m with packetId := some id, dup := true } := by
  induction h generalizing id kept with
  | start => simp at sent
  | @next past f before op ih =>
    -- What an entry that gives out no identifier, or another one, leaves as it was.
    have older {answer : Except ExchangeError Report} (apart : Entry.assigned (op, answer) ≠ some id)
        {k : Publish} (was : f.outgoing[id]? = some (.sent k)) :
        ∃ m, LastRegistered (past ++ [(op, answer)]) id m ∧ m.qos ≠ .atMostOnce ∧
          { k with dup := true } = { m with packetId := some id, dup := true } := by
      obtain ⟨m, last, level, same⟩ := ih was
      exact ⟨m, last.snoc apart, level, same⟩
    generalize (f.perform op).1 = answer, (f.perform op).2 = g, perform_did f op = did at sent ⊢
    cases did with
    | registered m k level free =>
      rw [getElem?_insert_id] at sent
      split at sent
      · rename_i here
        subst here
        cases sent
        exact ⟨m, ⟨past, [], rfl, by simp⟩, level, rfl⟩
      · rename_i elsewhere
        exact older (by simpa [Entry.assigned] using elsewhere) sent
    | repeated k m valid was =>
      rw [getElem?_insert_id] at sent
      split at sent
      · rename_i here
        subst here
        cases sent
        have unassigned (p : Packet) : Entry.assigned (.retransmit k, .ok (.again p)) ≠ some k := by
          simp [Entry.assigned]
        have same := older (unassigned (.publish { m with dup := true })) was
        exact same
      · exact older (by simp [Entry.assigned]) sent
    | received k m valid was =>
      rw [getElem?_insert_id] at sent
      split at sent
      · cases sent
      · exact older (by simp [Entry.assigned]) sent
    | acknowledged k m was =>
      rw [getElem?_erase_id] at sent
      split at sent
      · cases sent
      · exact older (by simp [Entry.assigned]) sent
    | completed k due =>
      rw [getElem?_erase_id] at sent
      split at sent
      · cases sent
      · exact older (by simp [Entry.assigned]) sent
    | cleared => simp [clear] at sent
    | looked op report looks shows =>
      refine older ?_ sent
      cases report <;> simp_all [Entry.assigned]
    | _ => exact older (by simp [Entry.assigned]) sent

/-! ## How many there are -/

/-- What has happened since everything was dropped last. -/
def recent (past : List Entry) : List Entry := past.rtakeWhile fun e => e.1 ≠ .clear

theorem recent_snoc (past : List Entry) {e : Entry} (other : e.1 ≠ .clear) :
    recent (past ++ [e]) = recent past ++ [e] := List.rtakeWhile_concat_pos _ _ _ (by simpa using other)

theorem recent_clear (past : List Entry) (answer : Except ExchangeError Report) :
    recent (past ++ [(.clear, answer)]) = [] := List.rtakeWhile_concat_neg _ _ _ (by simp)

namespace Entry

/-- An outgoing exchange has begun. -/
def begins : Entry → Bool
  | (.register m, .ok (.numbered _)) => m.qos ≠ .atMostOnce
  | _ => false

/-- An outgoing exchange has ended. -/
def ends : Entry → Bool
  | (.puback _, .ok .done) => true
  | (.pubcomp _, .ok .done) => true
  | _ => false

/-- A level-2 message was handed over for the first time. -/
def delivers : Entry → Bool
  | (.publish m, .ok (.taken .deliver)) => m.qos = .exactlyOnce
  | _ => false

/-- An incoming exchange has ended. -/
def frees : Entry → Bool
  | (.pubrel _, .ok .done) => true
  | _ => false

end Entry

/-- The exchanges in each space are those that have begun and not ended since everything was dropped last. -/
structure Counted (past : List Entry) (f : InFlight) : Prop where
  outgoing : f.outgoing.size + (recent past).countP Entry.ends = (recent past).countP Entry.begins
  incoming : f.incoming.size + (recent past).countP Entry.frees = (recent past).countP Entry.delivers

theorem contains_found {α : Type} {table : Std.TreeMap PacketId α} {id : PacketId} {x : α}
    (found : table[id]? = some x) : table.contains id = true := by
  rw [Std.TreeMap.contains_eq_isSome_getElem?, found]
  rfl

theorem size_erase_key {α : Type} {table : Std.TreeMap PacketId α} {id : PacketId}
    (key : table.contains id = true) : (table.erase id).size + 1 = table.size := by
  have some := Std.TreeMap.isEmpty_eq_false_of_contains key
  rw [Std.TreeMap.isEmpty_eq_size_eq_zero, beq_eq_false_iff_ne] at some
  rw [Std.TreeMap.size_erase, if_pos key]
  omega

theorem size_erase_member {set : Std.TreeSet PacketId} {id : PacketId} (member : set.contains id = true) :
    (set.erase id).size + 1 = set.size := by
  have some := Std.TreeSet.isEmpty_eq_false_of_contains member
  rw [Std.TreeSet.isEmpty_eq_size_eq_zero, beq_eq_false_iff_ne] at some
  rw [Std.TreeSet.size_erase, if_pos member]
  omega

/-- An operation changes the two sizes by what it counts for. -/
theorem Did.tally {f g : InFlight} {op : Operation} {answer : Except ExchangeError Report}
    (did : Did f op answer g) (other : op ≠ .clear) :
    g.outgoing.size + (Entry.ends (op, answer)).toNat =
        f.outgoing.size + (Entry.begins (op, answer)).toNat ∧
      g.incoming.size + (Entry.frees (op, answer)).toNat =
        f.incoming.size + (Entry.delivers (op, answer)).toNat := by
  cases did with
  | failed op e => cases op <;> exact ⟨rfl, rfl⟩
  | untracked m level => simp [Entry.ends, Entry.begins, Entry.frees, Entry.delivers, level]
  | registered m id level free =>
    obtain ⟨_, -, -, fresh, -⟩ := freeId?_tried free
    have grown :=
      Std.TreeMap.size_insert (t := f.outgoing) (k := id) (v := .sent { m with packetId := some id })
    rw [fresh] at grown
    simpa [Entry.ends, Entry.begins, Entry.frees, Entry.delivers, level] using grown
  | acknowledged id m sent => exact ⟨size_erase_key (contains_found sent), rfl⟩
  | received id m valid sent =>
    have same := Std.TreeMap.size_insert (t := f.outgoing) (k := id) (v := .received)
    rw [contains_found sent] at same
    exact ⟨same, rfl⟩
  | completed id due => exact ⟨size_erase_key (contains_found due), rfl⟩
  | repeated id m valid sent =>
    have same := Std.TreeMap.size_insert (t := f.outgoing) (k := id) (v := .sent { m with dup := true })
    rw [contains_found sent] at same
    exact ⟨same, rfl⟩
  | passed m level => simp [Entry.ends, Entry.begins, Entry.frees, Entry.delivers, level]
  | delivered m id level valid unheld =>
    have grown := Std.TreeSet.size_insert (t := f.incoming) (k := id)
    rw [unheld] at grown
    simpa [Entry.ends, Entry.begins, Entry.frees, Entry.delivers, level] using grown
  | freed id held => exact ⟨rfl, size_erase_member held⟩
  | looked op report looks shows =>
    have silent : Entry.ends (op, .ok report) = false ∧ Entry.begins (op, .ok report) = false ∧
        Entry.frees (op, .ok report) = false ∧ Entry.delivers (op, .ok report) = false := by
      cases op <;> cases report <;> simp_all [Entry.ends, Entry.begins, Entry.frees, Entry.delivers]
    simp [silent]
  | cleared => exact absurd rfl other
  | _ => exact ⟨rfl, rfl⟩

/-- **No exchange is lost or counted twice.** -/
theorem After.counted {past : List Entry} {f : InFlight} (h : After past f) : Counted past f := by
  induction h with
  | start => exact ⟨rfl, rfl⟩
  | @next past f before op ih =>
    obtain ⟨outgoing, incoming⟩ := ih
    by_cases cleared : op = .clear
    · subst cleared
      exact ⟨by simp [recent_clear, perform, clear], by simp [recent_clear, perform, clear]⟩
    · obtain ⟨out, inc⟩ := (perform_did f op).tally cleared
      have counted (tally : Entry → Bool) :
          (recent (past ++ [(op, (f.perform op).1)])).countP tally =
            (recent past).countP tally + (tally (op, (f.perform op).1)).toNat := by
        rw [recent_snoc past cleared, List.countP_append, List.countP_singleton]
        cases tally (op, (f.perform op).1) <;> rfl
      exact ⟨by rw [counted, counted]; omega, by rw [counted, counted]; omega⟩

/-! ## The mark of a repeat -/

/-- The same exchange, whose message may be marked as a repeat. -/
inductive Repeats : Outgoing → Outgoing → Prop where
  | same (x : Outgoing) : Repeats x x
  | marked (m : Publish) : Repeats (.sent m) (.sent { m with dup := true })

/-- The same exchanges, some of whose messages may be marked as repeats. -/
structure Marked (f g : InFlight) : Prop where
  outgoing : ∀ id : PacketId, Option.Rel Repeats f.outgoing[id]? g.outgoing[id]?
  size : g.outgoing.size = f.outgoing.size
  incoming : g.incoming = f.incoming
  next : g.next = f.next

/-- Two steps go through with related results, or fail with the same error. -/
def Together {α : Type} (related : α → α → Prop) : Except ExchangeError α → Except ExchangeError α → Prop
  | .ok a, .ok b => related a b
  | .error e, .error e' => e' = e
  | _, _ => False

/-- The same answer, and exchanges that differ in marks only. -/
def SameAnswer {α : Type} (a b : α × InFlight) : Prop := b.1 = a.1 ∧ Marked a.2 b.2

theorem Together.map {y z : Except ExchangeError InFlight} (h : Together Marked y z) :
    Together SameAnswer (y.map ((), ·)) (z.map ((), ·)) := by
  cases y <;> cases z <;> first | exact h.elim | exact h | exact ⟨rfl, h⟩

namespace Marked

theorem refl (f : InFlight) : Marked f f where
  outgoing id := by
    cases f.outgoing[id]? with
    | none => exact .none
    | some x => exact .some (.same x)
  size := rfl
  incoming := rfl
  next := rfl

variable {f g : InFlight}

theorem contains (marked : Marked f g) (id : PacketId) : g.outgoing.contains id = f.outgoing.contains id := by
  have related := marked.outgoing id
  simp only [Std.TreeMap.contains_eq_isSome_getElem?]
  generalize f.outgoing[id]? = x, g.outgoing[id]? = y at related ⊢
  cases related <;> rfl

theorem insert (marked : Marked f g) (id : PacketId) {x y : Outgoing} (repeats : Repeats x y) :
    Marked { f with outgoing := f.outgoing.insert id x } { g with outgoing := g.outgoing.insert id y } where
  outgoing k := by
    simp only [getElem?_insert_id]
    split
    · exact .some repeats
    · exact marked.outgoing k
  size := by simp only [Std.TreeMap.size_insert, marked.contains, marked.size]
  incoming := marked.incoming
  next := marked.next

theorem erase (marked : Marked f g) (id : PacketId) :
    Marked { f with outgoing := f.outgoing.erase id } { g with outgoing := g.outgoing.erase id } where
  outgoing k := by
    simp only [getElem?_erase_id]
    split
    · exact .none
    · exact marked.outgoing k
  size := by simp only [Std.TreeMap.size_erase, marked.contains, marked.size]
  incoming := marked.incoming
  next := marked.next

theorem freeId? (marked : Marked f g) : g.freeId? = f.freeId? := by
  have taken : (fun id => g.outgoing.contains id) = fun id => f.outgoing.contains id :=
    funext marked.contains
  rw [InFlight.freeId?, InFlight.freeId?, marked.size, marked.next, taken]

theorem outgoingAt (marked : Marked f g) (id : PacketId) :
    (∃ e, f.outgoingAt id = .error e ∧ g.outgoingAt id = .error e) ∨
      ∃ x y, f.outgoingAt id = .ok x ∧ g.outgoingAt id = .ok y ∧ Repeats x y := by
  unfold InFlight.outgoingAt
  by_cases zero : id = 0
  · exact .inl ⟨_, if_pos zero, if_pos zero⟩
  · rw [if_neg zero, if_neg zero]
    have related := marked.outgoing id
    generalize f.outgoing[id]? = x, g.outgoing[id]? = y at related ⊢
    cases related with
    | none => exact .inl ⟨_, rfl, rfl⟩
    | some repeats => exact .inr ⟨_, _, rfl, rfl, repeats⟩

/-- Steps that begin with an exchange go together if they do for the exchange and its repeat. -/
theorem outgoingAt_bind {α : Type} {related : α → α → Prop} (marked : Marked f g) {id : PacketId}
    {step step' : Outgoing → Except ExchangeError α}
    (together : ∀ x y, Repeats x y → Together related (step x) (step' y)) :
    Together related (f.outgoingAt id >>= step) (g.outgoingAt id >>= step') := by
  obtain ⟨e, left, right⟩ | ⟨x, y, left, right, repeats⟩ := marked.outgoingAt id
  · rw [left, right]
    rfl
  · rw [left, right]
    exact together x y repeats

section

variable (marked : Marked f g) (id : PacketId)

include marked

theorem puback : Together Marked (f.onPuback id) (g.onPuback id) := by
  have acknowledged (level : Qos) : Together Marked
      (if level = .atLeastOnce then .ok { f with outgoing := f.outgoing.erase id }
        else .error (.unexpectedStage id))
      (if level = .atLeastOnce then .ok { g with outgoing := g.outgoing.erase id }
        else .error (.unexpectedStage id)) := by
    split
    · exact marked.erase id
    · rfl
  refine marked.outgoingAt_bind fun x y repeats => ?_
  cases repeats with
  | marked m => exact acknowledged m.qos
  | same x =>
    cases x with
    | received => rfl
    | sent m => exact acknowledged m.qos

theorem pubrec : Together Marked (f.onPubrec id) (g.onPubrec id) := by
  have acknowledged (level : Qos) : Together Marked
      (if level = .exactlyOnce then .ok { f with outgoing := f.outgoing.insert id .received }
        else .error (.unexpectedStage id))
      (if level = .exactlyOnce then .ok { g with outgoing := g.outgoing.insert id .received }
        else .error (.unexpectedStage id)) := by
    split
    · exact marked.insert id (.same .received)
    · rfl
  refine marked.outgoingAt_bind fun x y repeats => ?_
  cases repeats with
  | marked m => exact acknowledged m.qos
  | same x =>
    cases x with
    | received => rfl
    | sent m => exact acknowledged m.qos

theorem pubcomp : Together Marked (f.onPubcomp id) (g.onPubcomp id) := by
  refine marked.outgoingAt_bind fun x y repeats => ?_
  cases repeats with
  | marked m => rfl
  | same x =>
    cases x with
    | received => exact marked.erase id
    | sent m => rfl

theorem retransmit : Together SameAnswer (f.retransmit id) (g.retransmit id) := by
  refine marked.outgoingAt_bind fun x y repeats => ?_
  cases repeats with
  | marked m => exact ⟨rfl, marked.insert id (.same _)⟩
  | same x =>
    cases x with
    | received => exact ⟨rfl, marked⟩
    | sent m => exact ⟨rfl, marked.insert id (.same _)⟩

theorem pubrel : Together Marked (f.onPubrel id) (g.onPubrel id) := by
  unfold InFlight.onPubrel
  rw [marked.incoming]
  split
  · rfl
  · split
    · exact { marked with incoming := rfl }
    · rfl

end

theorem register (marked : Marked f g) (m : Publish) :
    Together SameAnswer (f.register m) (g.register m) := by
  unfold InFlight.register
  rw [marked.freeId?]
  split
  · exact ⟨rfl, marked⟩
  · cases f.freeId? with
    | none => rfl
    | some id =>
      have added := marked.insert id (.same (.sent { m with packetId := some id }))
      exact ⟨rfl, { added with next := rfl }⟩

theorem publish (marked : Marked f g) (m : Publish) :
    Together SameAnswer (f.onPublish m) (g.onPublish m) := by
  unfold InFlight.onPublish
  rw [marked.incoming]
  have passed (d : Disposition) : SameAnswer (d, f) (d, g) := ⟨rfl, marked⟩
  cases m.qos with
  | atMostOnce => exact passed .deliver
  | atLeastOnce =>
    cases requireId m with
    | error e => rfl
    | ok id => exact passed .deliver
  | exactlyOnce =>
    cases requireId m with
    | error e => rfl
    | ok id =>
      dsimp only [bind, Except.bind]
      cases f.incoming.contains id with
      | true => exact passed .duplicate
      | false => exact ⟨rfl, { marked with incoming := rfl }⟩

/-- The record shows the mark. -/
theorem shown (marked : Marked f g) (direction : Direction) (id : PacketId) :
    g.get? direction id = f.get? direction id ∨
      ∃ m, f.get? direction id = some (Outgoing.describe id (.sent m)) ∧
        g.get? direction id = some (Outgoing.describe id (.sent { m with dup := true })) := by
  cases direction with
  | inbound => exact .inl (by simp only [get?, marked.incoming])
  | outbound =>
    have related := marked.outgoing id
    simp only [get?]
    generalize f.outgoing[id]? = x, g.outgoing[id]? = y at related ⊢
    cases related with
    | none => exact .inl rfl
    | some repeats =>
      cases repeats with
      | same x => exact .inl rfl
      | marked m => exact .inr ⟨m, rfl, rfl⟩

end Marked

/-! ### Answers without the mark and with it -/

/-- The same answer to the same operation, or, to a look at an exchange, the message marked as a repeat. -/
def Alike (e e' : Entry) : Prop :=
  e' = e ∨ ∃ direction id x m, e = (.get direction id, .ok (.exchange (some x))) ∧
    x.stage = .sent ∧ x.message = some m ∧
    e' = (.get direction id, .ok (.exchange (some { x with message := some { m with dup := true } })))

variable {f g : InFlight}

theorem Together.settle {α : Type} {op : Operation} {report : α → Report}
    {y z : Except ExchangeError (α × InFlight)} (marked : Marked f g) (together : Together SameAnswer y z) :
    Alike (op, (f.settle report y).1) (op, (g.settle report z).1) ∧
      Marked (f.settle report y).2 (g.settle report z).2 := by
  cases y with
  | error e =>
    cases z with
    | error e' => cases together; exact ⟨.inl rfl, marked⟩
    | ok b => exact together.elim
  | ok a =>
    cases z with
    | error e' => exact together.elim
    | ok b =>
      obtain ⟨same, after⟩ := together
      exact ⟨.inl (by simp only [InFlight.settle, same]), after⟩

/-- **Marks change no answer but a look at the exchange itself.** -/
theorem Marked.perform (marked : Marked f g) (op : Operation) :
    Alike (op, (f.perform op).1) (op, (g.perform op).1) ∧ Marked (f.perform op).2 (g.perform op).2 := by
  cases op with
  | register m => exact (marked.register m).settle marked
  | puback id => exact (marked.puback id).map.settle marked
  | pubrec id => exact (marked.pubrec id).map.settle marked
  | pubcomp id => exact (marked.pubcomp id).map.settle marked
  | retransmit id => exact (marked.retransmit id).settle marked
  | publish m => exact (marked.publish m).settle marked
  | pubrel id => exact (marked.pubrel id).map.settle marked
  | isIncoming id =>
    exact ⟨.inl (by simp only [InFlight.perform, isIncoming, marked.incoming]), marked⟩
  | get direction id =>
    refine ⟨?_, marked⟩
    obtain same | ⟨m, plain, again⟩ := marked.shown direction id
    · exact .inl (by simp only [InFlight.perform, same])
    · refine .inr ⟨direction, id, Outgoing.describe id (.sent m), m, ?_, rfl, rfl, ?_⟩
      · rw [InFlight.perform, plain]
      · rw [InFlight.perform, again]
        rfl
  | size direction =>
    refine ⟨.inl ?_, by cases direction <;> exact marked⟩
    cases direction with
    | inbound => simp only [InFlight.perform, marked.incoming]
    | outbound => simp only [InFlight.perform, marked.size]
  | clear =>
    exact ⟨.inl rfl, { outgoing := fun id => by simp [InFlight.perform, clear]
                       size := rfl
                       incoming := rfl
                       next := marked.next }⟩

/-- To ask for a repeat leaves a mark and nothing else. -/
theorem Marked.retransmitted (marked : Marked f g) (id : PacketId) :
    Marked f (g.perform (.retransmit id)).2 := by
  generalize (g.perform (.retransmit id)).1 = answer, (g.perform (.retransmit id)).2 = h,
    perform_did g (.retransmit id) = did
  cases did with
  | repeated _ m valid sent =>
    refine { outgoing := fun k => ?_, size := ?_, incoming := marked.incoming, next := marked.next }
    · rw [getElem?_insert_id]
      split
      · rename_i here
        subst here
        have related := marked.outgoing id
        rw [sent] at related
        generalize f.outgoing[id]? = x at related
        cases related with
        | some repeats =>
          cases repeats with
          | same => exact .some (.marked m)
          | marked m => exact .some (.marked m)
      · exact marked.outgoing k
    · rw [Std.TreeMap.size_insert, if_pos (contains_found sent), marked.size]
  | _ => exact marked

/-! ### Histories without repeats and with them -/

/-- Two lists whose elements correspond one to one, but for what the second one has in addition. -/
inductive Interleaved {α β : Type} (same : α → β → Prop) (added : β → Prop) : List α → List β → Prop where
  | nil : Interleaved same added [] []
  | both {xs : List α} {ys : List β} {x : α} {y : β} (rest : Interleaved same added xs ys) (alike : same x y) :
    Interleaved same added (xs ++ [x]) (ys ++ [y])
  | more {xs : List α} {ys : List β} {y : β} (rest : Interleaved same added xs ys) (extra : added y) :
    Interleaved same added xs (ys ++ [y])

/-- What was done last, and what was there before. -/
theorem After.last {past : List Entry} {e : Entry} {f : InFlight} (h : After (past ++ [e]) f) :
    ∃ before, After past before ∧ e = (e.1, (before.perform e.1).1) ∧ f = (before.perform e.1).2 := by
  generalize whole : past ++ [e] = all at h
  cases h with
  | start => simp at whole
  | next before op =>
    obtain ⟨rfl, same⟩ := List.append_inj' whole rfl
    cases same
    exact ⟨_, before, rfl, rfl⟩

/-- **Repeats that are asked for in between disturb nothing.** -/
theorem After.inserted {past : List Entry} {f : InFlight} {ops : List Operation} (h : After past f)
    (inserted : Interleaved Eq (∃ id, · = .retransmit id) (past.map Prod.fst) ops) :
    ∃ padded g, After padded g ∧ padded.map Prod.fst = ops ∧
      Interleaved Alike (∃ id, ·.1 = .retransmit id) past padded ∧ Marked f g := by
  generalize plain : past.map Prod.fst = operations at inserted
  induction inserted generalizing past f with
  | nil =>
    cases List.map_eq_nil_iff.1 plain
    generalize none_ : ([] : List Entry) = all at h
    cases h with
    | start => exact ⟨[], empty, .start, rfl, .nil, .refl empty⟩
    | next before op => simp at none_
  | @both xs ys op _ rest same ih =>
    subst same
    obtain ⟨past, last, rfl, earlier, only⟩ := List.map_eq_append_iff.1 plain
    obtain ⟨e, rfl, rfl⟩ := List.map_eq_singleton_iff.1 only
    obtain ⟨before, history, entry, rfl⟩ := h.last
    obtain ⟨padded, g, history', operations, interleaved, marked⟩ := ih history earlier
    obtain ⟨alike, after⟩ := marked.perform e.1
    refine ⟨_, _, history'.next e.1, by simp [operations], interleaved.both ?_, after⟩
    rwa [entry]
  | more rest extra ih =>
    obtain ⟨id, rfl⟩ := extra
    obtain ⟨padded, g, history', operations, interleaved, marked⟩ := ih h plain
    exact ⟨_, _, history'.next (.retransmit id), by simp [operations], interleaved.more ⟨id, rfl⟩,
      marked.retransmitted id⟩

/-! ## Entries of a history -/

section

variable {past : List Entry} {f : InFlight} {id : PacketId} {m : Publish}

theorem After.received (h : After past f) (sent : f.outgoing[id]? = some (.sent m))
    (level : m.qos = .exactlyOnce) :
    After (past ++ [(.pubrec id, .ok .done)]) { f with outgoing := f.outgoing.insert id .received } := by
  refine h.found ?_
  rw [perform, onPubrec_eq_ok.2 ⟨h.sound.outgoing sent, ⟨m, sent, level⟩, rfl⟩]
  rfl

theorem After.completed (h : After past f) (due : f.outgoing[id]? = some .received) :
    After (past ++ [(.pubcomp id, .ok .done)]) { f with outgoing := f.outgoing.erase id } := by
  refine h.found ?_
  rw [perform, onPubcomp_eq_ok.2 ⟨h.sound.outgoing due, due, rfl⟩]
  rfl

theorem After.released (h : After past f) (due : f.outgoing[id]? = some .received) :
    After (past ++ [(.retransmit id, .ok (.again (.pubrel id)))]) f := by
  refine h.found ?_
  rw [perform, retransmit_eq_ok.2 ⟨h.sound.outgoing due, .inr ⟨due, rfl, rfl⟩⟩]
  rfl

theorem After.repeated (h : After past f) (sent : f.outgoing[id]? = some (.sent m)) :
    After (past ++ [(.retransmit id, .ok (.again (.publish { m with dup := true })))])
      { f with outgoing := f.outgoing.insert id (.sent { m with dup := true }) } := by
  refine h.found ?_
  rw [perform, retransmit_eq_ok.2 ⟨h.sound.outgoing sent, .inl ⟨m, sent, rfl, rfl⟩⟩]
  rfl

end

end InFlight

/-! ## The roster -/

namespace Roster

open InFlight (Entry Exchange Interleaved LastRegistered Alike recent)

/-- What is kept of the exchanges after a history, and what asking for a repeat comes to. -/
structure Faithful (past : List Entry) (r : Roster) : Prop where
  /-- A record stands under its own identifier. Its message is there until it has arrived. -/
  outbound : ∀ (id : PacketId) (x : Exchange), r.outbound[id]? = some x →
    id ≠ 0 ∧ x.packetId = id ∧ x.direction = .outbound ∧
    (x.qos = .atLeastOnce ∧ x.stage = .sent ∧ x.message.isSome = true ∨
      x.qos = .exactlyOnce ∧ x.stage = .sent ∧ x.message.isSome = true ∨
      x.qos = .exactlyOnce ∧ x.stage = .receivedAck ∧ x.message = none)
  inbound : ∀ (id : PacketId) (x : Exchange), r.inbound[id]? = some x →
    id ≠ 0 ∧ x.packetId = id ∧ x.direction = .inbound ∧
    x.qos = .exactlyOnce ∧ x.stage = .received ∧ x.message = none
  /-- No exchange is lost or counted twice. -/
  outboundCount : r.outbound.size + (recent past).countP Entry.ends = (recent past).countP Entry.begins
  inboundCount : r.inbound.size + (recent past).countP Entry.frees = (recent past).countP Entry.delivers
  /-- There is something to repeat exactly for the exchanges there are. -/
  fails : ∀ (turns : Nat) (id : PacketId) (e : ExchangeError) (r' : Roster),
    r.perform turns (.retransmit id) = some (.error e, r') ↔
      r.outbound[id]? = none ∧ e = (if id = 0 then .zeroPacketId else .unknownPacketId id) ∧ r' = r
  /-- A message is repeated as it was registered. -/
  sent : ∀ (id : PacketId) (x : Exchange), r.outbound[id]? = some x → x.stage = .sent →
    ∃ m r', LastRegistered past id m ∧ ∀ turns, r.perform turns (.retransmit id) =
      some (.ok (.again (.publish { m with packetId := some id, dup := true })), r')
  released : ∀ (id : PacketId) (x : Exchange), r.outbound[id]? = some x → x.stage = .receivedAck →
    ∃ r', ∀ turns, r.perform turns (.retransmit id) = some (.ok (.again (.pubrel id)), r')
  /-- Repeats that are asked for in between disturb nothing. -/
  undisturbed : ∀ ops, Interleaved Eq (∃ id, · = .retransmit id) (past.map Prod.fst) ops →
    ∃ padded s, After padded s ∧ padded.map Prod.fst = ops ∧
      Interleaved Alike (∃ id, ·.1 = .retransmit id) past padded

variable {r : Roster} {f : InFlight} {id : PacketId}

theorem Agrees.repeatless (agree : Agrees r f) (absent : f.outgoing[id]? = none) (turns : Nat) :
    r.perform turns (.retransmit id) =
      some (.error (if id = 0 then .zeroPacketId else .unknownPacketId id), r) := by
  have unknown : f.retransmit id = .error (if id = 0 then .zeroPacketId else .unknownPacketId id) := by
    unfold InFlight.retransmit InFlight.outgoingAt
    rw [absent]
    by_cases zero : id = 0
    · rw [if_pos zero, if_pos zero]
      rfl
    · rw [if_neg zero, if_neg zero]
      rfl
  have step := agree.retransmit id
  rw [unknown] at step
  exact bind_error step

theorem Agrees.repeated (agree : Agrees r f) {p : Packet} {g : InFlight}
    (granted : f.retransmit id = .ok (p, g)) :
    ∃ r', ∀ turns, r.perform turns (.retransmit id) = some (.ok (.again p), r') := by
  have step := agree.retransmit id
  rw [granted] at step
  obtain ⟨r', outcome, -⟩ := step
  exact ⟨r', fun _ => bind_ok outcome⟩

/-- What is sent when an exchange is to be repeated. -/
def repetition (id : PacketId) : Outgoing → Packet
  | .sent m => .publish { m with dup := true }
  | .received => .pubrel id

/-- Every exchange can be repeated. -/
theorem Agrees.repeats (agree : Agrees r f) (sound : f.Sound) {y : Outgoing}
    (here : f.outgoing[id]? = some y) :
    ∃ r', ∀ turns, r.perform turns (.retransmit id) = some (.ok (.again (repetition id y)), r') := by
  have valid := sound.outgoing here
  cases y with
  | sent m => exact agree.repeated (InFlight.retransmit_eq_ok.2 ⟨valid, .inl ⟨m, here, rfl, rfl⟩⟩)
  | received => exact agree.repeated (InFlight.retransmit_eq_ok.2 ⟨valid, .inr ⟨here, rfl, rfl⟩⟩)

/-- What a record describes. -/
theorem Agrees.described (agree : Agrees r f) {x : Exchange} (found : r.outbound[id]? = some x) :
    ∃ y, f.outgoing[id]? = some y ∧ x = InFlight.Outgoing.describe id y := by
  rw [agree.outbound] at found
  obtain ⟨y, here, rfl⟩ := Option.map_eq_some_iff.1 found
  exact ⟨y, here, rfl⟩

/-- The three shapes of a record. -/
theorem shape {y : Outgoing} (sound : f.Sound) (here : f.outgoing[id]? = some y) :
    let x := InFlight.Outgoing.describe id y
    x.qos = .atLeastOnce ∧ x.stage = .sent ∧ x.message.isSome = true ∨
      x.qos = .exactlyOnce ∧ x.stage = .sent ∧ x.message.isSome = true ∨
      x.qos = .exactlyOnce ∧ x.stage = .receivedAck ∧ x.message = none := by
  cases y with
  | received => exact .inr (.inr ⟨rfl, rfl, rfl⟩)
  | sent m =>
    have level := (sound.sent here).1
    cases known : m.qos with
    | atMostOnce => exact absurd known level
    | atLeastOnce => exact .inl ⟨known, rfl, rfl⟩
    | exactlyOnce => exact .inr (.inl ⟨known, rfl, rfl⟩)

/-- **What is kept is what was registered**, and it can be repeated as often as one likes. -/
theorem after_faithful {past : List Entry} (reached : After past r) : Faithful past r := by
  obtain ⟨f, history, agree⟩ := reached.agrees
  have sound := history.sound
  refine { outbound := fun id x found => ?_, inbound := fun id x found => ?_,
           outboundCount := agree.outboundSize ▸ history.counted.outgoing,
           inboundCount := agree.inboundSize ▸ history.counted.incoming,
           fails := fun turns id e r' => ⟨fun failed => ?_, ?_⟩, sent := fun id x found stage => ?_,
           released := fun id x found stage => ?_, undisturbed := fun ops inserted => ?_ }
  · obtain ⟨y, here, rfl⟩ := agree.described found
    exact ⟨sound.outgoing here, by cases y <;> rfl, by cases y <;> rfl, shape sound here⟩
  · rw [agree.inbound] at found
    split at found
    · rename_i held
      cases found
      exact ⟨sound.incoming held, rfl, rfl, rfl, rfl, rfl⟩
    · cases found
  · cases here : f.outgoing[id]? with
    | none =>
      rw [agree.repeatless here] at failed
      cases failed
      exact ⟨by rw [agree.outbound, here]; rfl, rfl, rfl⟩
    | some y =>
      obtain ⟨_, done⟩ := agree.repeats sound here
      rw [done] at failed
      cases failed
  · rintro ⟨absent, rfl, rfl⟩
    rw [agree.outbound, Option.map_eq_none_iff] at absent
    exact agree.repeatless absent turns
  · obtain ⟨y, here, rfl⟩ := agree.described found
    cases y with
    | received => cases stage
    | sent kept =>
      obtain ⟨m, last, -, same⟩ := history.lastRegistered here
      obtain ⟨r', done⟩ := agree.repeats sound here
      exact ⟨m, r', last, same ▸ done⟩
  · obtain ⟨y, here, rfl⟩ := agree.described found
    cases y with
    | sent m => cases stage
    | received => exact agree.repeats sound here
  · obtain ⟨padded, g, padding, operations, interleaved, -⟩ := history.inserted inserted
    obtain ⟨s, history', -⟩ := padding.agrees
    exact ⟨padded, s, history', operations, interleaved⟩

/-- A message of level 2 from the application. -/
def parcel : Publish := ⟨false, .exactlyOnce, false, "u", none, []⟩

/-- An exchange of the first identifier from its beginning to its end, with a repeat in it. -/
def wholeExchange : List Entry :=
  [(.register parcel, .ok (.numbered { parcel with packetId := some 1 })), (.pubrec 1, .ok .done),
    (.retransmit 1, .ok (.again (.pubrel 1))), (.pubcomp 1, .ok .done)]

/-- After that exchange all the other identifiers have been given out, and nothing is in flight. -/
theorem after_wholeExchange :
    ∃ more f, InFlight.After (wholeExchange ++ more) f ∧ f.next = 1 ∧ f.outgoing.size = 0 ∧
      ∀ id : PacketId, f.outgoing[id]? = none := by
  have sent : InFlight.After _
      ⟨InFlight.empty.outgoing.insert 1 (.sent { parcel with packetId := some 1 }), _, 2⟩ :=
    InFlight.After.start.registered (m := parcel) (by decide) (by decide) (by decide)
  have arrived := sent.received (getElem?_insert_same ..) rfl
  have ended := (arrived.released (getElem?_insert_same ..)).completed (getElem?_insert_same ..)
  have vacant (x y : Outgoing) (id : PacketId) :
      (((InFlight.empty.outgoing.insert 1 x).insert 1 y).erase 1)[id]? = none := by
    rw [getElem?_erase_id, getElem?_insert_id, getElem?_insert_id, InFlight.outgoing_empty]
    split <;> simp_all
  obtain ⟨more, f, history, start, size, shown⟩ :=
    ended.passing_on 65534 (m := hello) rfl (by decide) fun _ _ => vacant ..
  refine ⟨more, f, history, ?_, size.trans (by decide), fun id => (shown id).trans (vacant ..)⟩
  rw [start, ← UInt16.toNat_inj, InFlight.tried_toNat (by decide)]
  rfl

/-- The first identifier is given out again, to a message that is repeated then, while another one has arrived
already. -/
theorem reused_faithful :
    ∃ past r, After past r ∧ Faithful past r ∧ wholeExchange <+: past ∧
      [(.register hello, .ok (.numbered numbered)),
        (.register parcel, .ok (.numbered { parcel with packetId := some 2 })), (.pubrec 2, .ok .done),
        (.retransmit 1, .ok (.again (.publish { numbered with dup := true })))] <:+ past ∧
      r.outbound[(1 : PacketId)]? =
        some ⟨1, .outbound, .atLeastOnce, .sent, some { numbered with dup := true }⟩ ∧
      r.outbound[(2 : PacketId)]? = some ⟨2, .outbound, .exactlyOnce, .receivedAck, none⟩ := by
  obtain ⟨more, ⟨table, incoming, next⟩, history, rfl, vacant, free⟩ := after_wholeExchange
  have one : (table.insert 1 (.sent numbered)).size ≤ 1 :=
    Nat.le_trans Std.TreeMap.size_insert_le (Nat.le_of_eq (congrArg (· + 1) vacant))
  have first : InFlight.After _ ⟨table.insert 1 (.sent numbered), incoming, 2⟩ :=
    history.registered (m := hello) (by decide) (Nat.lt_of_le_of_lt (Nat.le_of_eq vacant) (by decide)) (free 1)
  have apart : (table.insert 1 (.sent numbered))[(2 : PacketId)]? = none := by
    rw [getElem?_insert_id, if_neg (by decide)]
    exact free 2
  have second : InFlight.After _
      ⟨(table.insert 1 (.sent numbered)).insert 2 (.sent { parcel with packetId := some 2 }), incoming, 3⟩ :=
    first.registered (m := parcel) (by decide) (Nat.lt_of_le_of_lt one (by decide)) apart
  have waits : (((table.insert 1 (.sent numbered)).insert 2 (.sent { parcel with packetId := some 2 })).insert 2
      .received)[(1 : PacketId)]? = some (.sent numbered) := by
    rw [getElem?_insert_id, if_neg (by decide), getElem?_insert_id, if_neg (by decide), getElem?_insert_same]
  have both := (second.received (getElem?_insert_same ..) rfl).repeated waits
  obtain ⟨r, reached, agree⟩ := both.agrees
  simp only [List.append_assoc] at reached
  refine ⟨_, r, reached, after_faithful reached, List.prefix_append _ _, ?_, ?_, ?_⟩
  · exact (List.suffix_append _ _).trans (List.suffix_append _ _)
  · rw [agree.outbound, getElem?_insert_same]
    rfl
  · rw [agree.outbound, getElem?_insert_id, if_neg (by decide), getElem?_insert_same]
    rfl

/-- Who looks at the record sees that a repeat was asked for. -/
theorem repeat_shown :
    ∃ r s, After [(.register hello, .ok (.numbered numbered)),
        (.get .outbound 1, .ok (.exchange (some ⟨1, .outbound, .atLeastOnce, .sent, some numbered⟩)))] r ∧
      After [(.register hello, .ok (.numbered numbered)),
        (.retransmit 1, .ok (.again (.publish { numbered with dup := true }))),
        (.get .outbound 1, .ok (.exchange
          (some ⟨1, .outbound, .atLeastOnce, .sent, some { numbered with dup := true }⟩)))] s ∧
      numbered ≠ { numbered with dup := true } :=
  ⟨_, _, after_greeted.next 0 rfl, (after_greeted.next 0 rfl).next 0 rfl, by decide⟩

end Roster
end MqttLink
