import MqttLink.Roster
import MqttLink.Proofs.Exchange.Identifiers
/-!
# One operation after the other

`InFlight.perform` carries out any of a roster's operations on the exchanges. `Did` is all that an
operation can do, and what holds of every history is proved from it: `After` runs operations from the
start, and `Sound` is what it never loses.
-/

namespace MqttLink

open Roster (Operation Report)

namespace InFlight

/-- An operation that fails leaves the exchanges as they are. -/
def settle {α : Type} (f : InFlight) (report : α → Report) :
    Except ExchangeError (α × InFlight) → Except ExchangeError Report × InFlight
  | .ok (a, g) => (.ok (report a), g)
  | .error e => (.error e, f)

/-- What an operation answers, and the exchanges after it. -/
def perform (f : InFlight) : Operation → Except ExchangeError Report × InFlight
  | .register message => f.settle .numbered (f.register message)
  | .puback id => f.settle (fun _ => .done) ((f.onPuback id).map ((), ·))
  | .pubrec id => f.settle (fun _ => .done) ((f.onPubrec id).map ((), ·))
  | .pubcomp id => f.settle (fun _ => .done) ((f.onPubcomp id).map ((), ·))
  | .retransmit id => f.settle .again (f.retransmit id)
  | .publish message => f.settle .taken (f.onPublish message)
  | .pubrel id => f.settle (fun _ => .done) ((f.onPubrel id).map ((), ·))
  | .isIncoming id => (.ok (.held (f.isIncoming id)), f)
  | .get direction id => (.ok (.exchange (f.get? direction id)), f)
  | .size .inbound => (.ok (.count f.incoming.size), f)
  | .size .outbound => (.ok (.count f.outgoing.size), f)
  | .clear => (.ok .done, f.clear)

/-! ## What an operation can do -/

/-- Everything that can come of an operation. -/
inductive Did (f : InFlight) : Operation → Except ExchangeError Report → InFlight → Prop where
  | failed (op : Operation) (e : ExchangeError) : Did f op (.error e) f
  | untracked (m : Publish) (level : m.qos = .atMostOnce) :
    Did f (.register m) (.ok (.numbered { m with packetId := none })) f
  | registered (m : Publish) (id : PacketId) (level : m.qos ≠ .atMostOnce) (free : f.freeId? = some id) :
    Did f (.register m) (.ok (.numbered { m with packetId := some id }))
      { f with
        outgoing := f.outgoing.insert id (.sent { m with packetId := some id }), next := successor id }
  | acknowledged (id : PacketId) (m : Publish) (sent : f.outgoing[id]? = some (.sent m)) :
    Did f (.puback id) (.ok .done) { f with outgoing := f.outgoing.erase id }
  | received (id : PacketId) (m : Publish) (valid : id ≠ 0) (sent : f.outgoing[id]? = some (.sent m)) :
    Did f (.pubrec id) (.ok .done) { f with outgoing := f.outgoing.insert id .received }
  | completed (id : PacketId) (due : f.outgoing[id]? = some .received) :
    Did f (.pubcomp id) (.ok .done) { f with outgoing := f.outgoing.erase id }
  | repeated (id : PacketId) (m : Publish) (valid : id ≠ 0) (sent : f.outgoing[id]? = some (.sent m)) :
    Did f (.retransmit id) (.ok (.again (.publish { m with dup := true })))
      { f with outgoing := f.outgoing.insert id (.sent { m with dup := true }) }
  | released (id : PacketId) (due : f.outgoing[id]? = some .received) :
    Did f (.retransmit id) (.ok (.again (.pubrel id))) f
  | passed (m : Publish) (level : m.qos ≠ .exactlyOnce) : Did f (.publish m) (.ok (.taken .deliver)) f
  | duplicate (m : Publish) : Did f (.publish m) (.ok (.taken .duplicate)) f
  | delivered (m : Publish) (id : PacketId) (level : m.qos = .exactlyOnce) (valid : id ≠ 0)
    (unheld : f.incoming.contains id = false) :
    Did f (.publish m) (.ok (.taken .deliver)) { f with incoming := f.incoming.insert id }
  | freed (id : PacketId) (held : f.incoming.contains id = true) :
    Did f (.pubrel id) (.ok .done) { f with incoming := f.incoming.erase id }
  | looked (op : Operation) (report : Report) (looks : op ≠ .clear)
    (shows : report ≠ .done ∧ (∀ d, report ≠ .taken d) ∧ ∀ m, report ≠ .numbered m) :
    Did f op (.ok report) f
  | cleared : Did f .clear (.ok .done) f.clear

/-- An operation that may fail did what it does when it goes through. -/
theorem did_settle {α : Type} {f : InFlight} {op : Operation} {report : α → Report}
    {y : Except ExchangeError (α × InFlight)}
    (granted : ∀ a g, y = .ok (a, g) → Did f op (.ok (report a)) g) :
    Did f op (f.settle report y).1 (f.settle report y).2 := by
  cases h : y with
  | error e => exact .failed op e
  | ok done => exact granted done.1 done.2 h

/-- The same for an operation that has nothing to report. -/
theorem did_done {f : InFlight} {op : Operation} {y : Except ExchangeError InFlight}
    (granted : ∀ g, y = .ok g → Did f op (.ok .done) g) :
    Did f op (f.settle (fun _ => .done) (y.map ((), ·))).1
      (f.settle (fun _ => .done) (y.map ((), ·))).2 := by
  refine did_settle fun _ g h => granted g ?_
  cases y with
  | error e => cases h
  | ok g' => cases h; rfl

/-- **Nothing else comes of an operation.** -/
theorem perform_did (f : InFlight) (op : Operation) : Did f op (f.perform op).1 (f.perform op).2 := by
  cases op with
  | register m =>
    refine did_settle fun numbered g h => ?_
    obtain ⟨level, rfl, rfl⟩ | ⟨level, id, free, rfl, rfl⟩ := register_eq_ok.1 h
    · exact .untracked m level
    · exact .registered m id level free
  | puback id =>
    refine did_done fun g h => ?_
    obtain ⟨-, ⟨m, sent, -⟩, rfl⟩ := onPuback_eq_ok.1 h
    exact .acknowledged id m sent
  | pubrec id =>
    refine did_done fun g h => ?_
    obtain ⟨valid, ⟨m, sent, -⟩, rfl⟩ := onPubrec_eq_ok.1 h
    exact .received id m valid sent
  | pubcomp id =>
    refine did_done fun g h => ?_
    obtain ⟨-, due, rfl⟩ := onPubcomp_eq_ok.1 h
    exact .completed id due
  | retransmit id =>
    refine did_settle fun packet g h => ?_
    obtain ⟨valid, ⟨m, sent, rfl, rfl⟩ | ⟨due, rfl, rfl⟩⟩ := retransmit_eq_ok.1 h
    · exact .repeated id m valid sent
    · exact .released id due
  | publish m =>
    refine did_settle fun d g h => ?_
    obtain ⟨level, rfl, rfl⟩ | ⟨level, -, rfl, rfl⟩ |
      ⟨level, id, -, valid, ⟨-, rfl, rfl⟩ | ⟨unheld, rfl, rfl⟩⟩ := onPublish_eq_ok.1 h
    · exact .passed m (by rw [level]; decide)
    · exact .passed m (by rw [level]; decide)
    · exact .duplicate m
    · exact .delivered m id level valid unheld
  | pubrel id =>
    refine did_done fun g h => ?_
    obtain ⟨-, held, rfl⟩ := onPubrel_eq_ok.1 h
    exact .freed id held
  | isIncoming id => exact .looked _ _ (by simp) (by simp)
  | get direction id => exact .looked _ _ (by simp) (by simp)
  | size direction => cases direction <;> exact .looked _ _ (by simp) (by simp)
  | clear => exact .cleared

/-! ## Histories -/

/-- An operation, and what it answered. -/
abbrev Entry := Operation × Except ExchangeError Report

/-- The exchanges after some operations, the first of which found none. -/
inductive After : List Entry → InFlight → Prop where
  | start : After [] empty
  | next {past : List Entry} {f : InFlight} (before : After past f) (op : Operation) :
    After (past ++ [(op, (f.perform op).1)]) (f.perform op).2

/-- Identifiers and levels are in order. -/
structure Sound (f : InFlight) : Prop where
  next : f.next ≠ 0
  outgoing : ∀ {id : PacketId} {x : Outgoing}, f.outgoing[id]? = some x → id ≠ 0
  /-- Only a message that waits for an acknowledgment is kept, with the identifier it was given. -/
  sent : ∀ {id : PacketId} {m : Publish}, f.outgoing[id]? = some (.sent m) →
    m.qos ≠ .atMostOnce ∧ m.packetId = some id
  incoming : ∀ {id : PacketId}, f.incoming.contains id = true → id ≠ 0

theorem sound_empty : Sound empty where
  next := by decide
  outgoing h := by simp at h
  sent h := by simp at h
  incoming h := by simp at h

section

variable {f g : InFlight} {op : Operation} {answer : Except ExchangeError Report}

/-- What is kept under an identifier after one more exchange is put there. -/
theorem Sound.insert (sound : Sound f) {id : PacketId} {x : Outgoing} (valid : id ≠ 0)
    (kept : ∀ m, x = .sent m → m.qos ≠ .atMostOnce ∧ m.packetId = some id) :
    Sound { f with outgoing := f.outgoing.insert id x } where
  next := sound.next
  outgoing {k y} h := by
    rw [getElem?_insert_id] at h
    split at h
    · rename_i same
      exact same ▸ valid
    · exact sound.outgoing h
  sent {k m} h := by
    rw [getElem?_insert_id] at h
    split at h
    · rename_i same
      cases h
      exact same ▸ kept m rfl
    · exact sound.sent h
  incoming := sound.incoming

theorem Sound.erase (sound : Sound f) (id : PacketId) :
    Sound { f with outgoing := f.outgoing.erase id } where
  next := sound.next
  outgoing {k y} h := by
    rw [getElem?_erase_id] at h
    split at h
    · cases h
    · exact sound.outgoing h
  sent {k m} h := by
    rw [getElem?_erase_id] at h
    split at h
    · cases h
    · exact sound.sent h
  incoming := sound.incoming

theorem freeId?_ne_zero (sound : Sound f) {id : PacketId} (free : f.freeId? = some id) : id ≠ 0 := by
  obtain ⟨k, -, rfl, -⟩ := freeId?_tried free
  exact tried_ne_zero sound.next k

theorem Sound.did (sound : Sound f) (did : Did f op answer g) : Sound g := by
  cases did with
  | registered m id level free =>
    have added := sound.insert (freeId?_ne_zero sound free) (x := .sent { m with packetId := some id })
      (by rintro _ ⟨⟩; exact ⟨level, rfl⟩)
    exact { added with next := successor_ne_zero id }
  | acknowledged id m sent => exact sound.erase id
  | received id m valid sent => exact sound.insert valid (by rintro _ ⟨⟩)
  | completed id due => exact sound.erase id
  | repeated id m valid sent =>
    have kept := sound.sent sent
    exact sound.insert valid (by rintro _ ⟨⟩; exact kept)
  | delivered m id level valid unheld =>
    refine { sound with incoming := fun {k} h => ?_ }
    obtain rfl | held := (contains_insert_id _ _ _).1 h
    · exact valid
    · exact sound.incoming held
  | freed id held => exact { sound with incoming := fun h => sound.incoming ((contains_erase_id _ _ _).1 h).2 }
  | cleared => exact { sound_empty with next := sound.next }
  | _ => exact sound

/-- **No history brings the exchanges out of order.** -/
theorem After.sound {past : List Entry} (h : After past f) : Sound f := by
  induction h with
  | start => exact sound_empty
  | next before op sound => exact sound.did (perform_did _ op)

end

end InFlight
end MqttLink
