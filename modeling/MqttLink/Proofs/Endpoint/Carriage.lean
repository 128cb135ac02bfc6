import MqttLink.Proofs.Endpoint.Story
import MqttLink.Proofs.Wire.Canonical
/-!
# An endpoint sends what the wire can carry

An endpoint does not look at lengths. What it sends is made of what it was given: a PUBLISH of a message
of the application, whose topic it has checked, and a SUBACK of as many codes as the SUBSCRIBE had filters.
`Provided` says what it must have been given for later packets to be carried; every move keeps it and sends
nothing but what can be carried (`Move.sendable`), as long as the packets that come have been read from
bytes and the messages are not too large.
-/

namespace MqttLink

open Wire

namespace Packet

/-- Whether some bytes are read as this packet. -/
def Found (p : Packet) : Prop := ∃ limit buffer size, decode limit buffer = .packet p size

/-- Whether this packet is written without a failure, and what is written is read as the same packet and
no further. -/
def Carried (p : Packet) : Prop :=
  ∃ bytes, (∀ buffer, p.write buffer = (.ok (), buffer ++ bytes)) ∧
    ∀ rest, decode Length.maxLength (bytes ++ rest) = .packet p bytes.length

theorem Carriable.carried {p : Packet} (h : p.Carriable) : p.Carried :=
  ⟨p.bytes, writes_packet h, fun rest => decode_bytes h h.small rest⟩

/-- A SUBSCRIBE that was read has filters, and as many codes fit a SUBACK. -/
theorem Found.filters {id : PacketId} {subs : List Subscription} (h : (subscribe id subs).Found) :
    0 < subs.length ∧ 2 + subs.length ≤ Length.maxLength := by
  obtain ⟨limit, buffer, size, read⟩ := h
  obtain ⟨ok, field, rest, -, spells, -⟩ := decode_eq_packet read
  refine ⟨List.length_pos_iff.2 ok.1, ?_⟩
  have small : (subscribe id subs).bodyLength ≤ Length.maxLength := by
    rw [← length_received]; exact spells.le
  have each (l : List Subscription) : l.length ≤ total (l.map fun s => 2 + s.filter.utf8ByteSize + 1) := by
    induction l with
    | nil => exact Nat.le_refl 0
    | cons s l ih => simp only [total, List.map_cons, List.foldr_cons, List.length_cons] at ih ⊢; omega
  have := each subs
  simp only [bodyLength] at small
  omega

/-- A CONNACK that refuses, an acknowledgment, or the answer to a ping. -/
def isBrief : Packet → Bool
  | connack present code => !present || code.isAccepted
  | puback _ | pubrec _ | pubrel _ | pubcomp _ | unsuback _ | pingresp => true
  | _ => false

theorem carriable_brief {p : Packet} (brief : p.isBrief = true) : p.Carriable := by
  cases p with
  | connack present code =>
    refine ⟨?_, Nat.le_of_ble_eq_true rfl⟩
    rintro rfl
    cases code <;> first | rfl | cases brief
  | puback | pubrec | pubrel | pubcomp | unsuback | pingresp =>
    exact ⟨trivial, Nat.le_of_ble_eq_true rfl⟩
  | _ => cases brief

theorem carriable_suback (id : PacketId) {codes : List SubackCode} (some : 0 < codes.length)
    (fits : 2 + codes.length ≤ Length.maxLength) : (suback id codes).Carriable :=
  ⟨List.length_pos_iff.1 some, fits⟩

end Packet

/-- Whether an input is what a reader of bytes can find, or a message that fits a packet. -/
def Input.Fits : Input → Prop
  | .packet p => p.Found
  | .action (.publish topic payload _ _ _) =>
    topic.utf8ByteSize + payload.length + 4 ≤ Length.maxLength
  | _ => True

namespace Endpoint

open Reaction

/-! ## Messages -/

section

variable {topic : String} {payload : Bytes} {qos : Qos} {dup retain : Bool}

theorem carries_name (name : Topic.isName topic = true) :
    Field.Carries topic ∧ Topic.hasWildcard topic = false := by
  obtain ⟨-, short, plain, clean⟩ := Topic.isName_iff.1 name
  exact ⟨⟨short, clean⟩, plain⟩

theorem carriable_unnumbered (name : Topic.isName topic = true)
    (fits : topic.utf8ByteSize + payload.length + 4 ≤ Length.maxLength) :
    (Packet.publish { draft topic payload .atMostOnce dup retain with packetId := none }).Carriable := by
  obtain ⟨carries, plain⟩ := carries_name name
  refine ⟨⟨carries, plain, fun _ => ⟨?_, rfl⟩, fun level => absurd rfl level⟩, ?_⟩
  · simp [draft, Qos.needsId]
  · simp only [Packet.bodyLength, Publish.bodyLength, draft, Qos.needsId, Bool.false_eq_true, if_false]
    omega

theorem carriable_numbered (id : PacketId) (level : qos ≠ .atMostOnce) (name : Topic.isName topic = true)
    (fits : topic.utf8ByteSize + payload.length + 4 ≤ Length.maxLength) :
    (Packet.publish { draft topic payload qos dup retain with packetId := some id }).Carriable := by
  obtain ⟨carries, plain⟩ := carries_name name
  refine ⟨⟨carries, plain, fun zero => absurd zero level, fun _ => rfl⟩, ?_⟩
  have needs : qos.needsId = true := by
    cases qos with
    | atMostOnce => exact absurd rfl level
    | _ => rfl
  simp only [Packet.bodyLength, Publish.bodyLength, draft, needs, if_true]
  omega

end

/-- Whether a message can be sent again. At level 0 none can: the mark of a repeat would make it one that
no reader takes. -/
structure Repeatable (m : Publish) : Prop where
  level : m.qos ≠ .atMostOnce
  carriable : (Packet.publish m).Carriable

theorem Repeatable.again {m : Publish} (h : Repeatable m) : Repeatable { m with dup := true } where
  level := h.level
  carriable :=
    have content := h.carriable.content
    ⟨⟨content.topic, content.plain, fun zero => absurd zero h.level, content.numbered⟩, h.carriable.small⟩

/-! ## What an endpoint has been given -/

/-- What an endpoint keeps for later packets: messages that can be sent again, numbers of filters that a
SUBACK has room for, and packets that were read from bytes. -/
structure Provided (e : Endpoint) : Prop where
  sent : ∀ {id : PacketId} {m : Publish}, e.session.exchanges.outgoing[id]? = some (.sent m) → Repeatable m
  subscribed : ∀ {id : PacketId} {n : Nat}, e.subscribes[id]? = some n → 0 < n ∧ 2 + n ≤ Length.maxLength
  held : ∀ {due held}, e.handshake = .deciding due held → ∀ p ∈ held, p.Found

theorem provided_start (policy : Policy) (opened : Instant) : Provided (start policy opened) where
  sent := by simp [start, Session.start]
  subscribed := by simp [start]
  held := nofun

theorem provided_ended (e : Endpoint) : Provided e.ended where
  sent := by simp [ended, Session.discard, InFlight.clear]
  subscribed := by simp [ended]
  held := nofun

section

variable {e : Endpoint}

theorem Provided.touched (h : Provided e) (now : Instant) : Provided (e.touched now) :=
  ⟨h.sent, h.subscribed, h.held⟩

theorem Provided.withExchanges {f : InFlight} (h : Provided e)
    (sent : ∀ {id : PacketId} {m : Publish}, f.outgoing[id]? = some (.sent m) → Repeatable m) :
    Provided (e.withExchanges f) :=
  ⟨sent, h.subscribed, h.held⟩

/-- An exchange is over, or its message need not be sent again. -/
theorem Provided.erase (h : Provided e) (k : PacketId) {incoming : Std.TreeSet PacketId} {next : PacketId} :
    Provided (e.withExchanges ⟨e.session.exchanges.outgoing.erase k, incoming, next⟩) := by
  refine h.withExchanges fun {id m} found => ?_
  rw [getElem?_erase_id] at found
  split at found
  · cases found
  · exact h.sent found

theorem Provided.insert (h : Provided e) (k : PacketId) {x : Outgoing} {incoming : Std.TreeSet PacketId}
    {next : PacketId} (fits : ∀ m, x = .sent m → Repeatable m) :
    Provided (e.withExchanges ⟨e.session.exchanges.outgoing.insert k x, incoming, next⟩) := by
  refine h.withExchanges fun {id m} found => ?_
  rw [getElem?_insert_id] at found
  split at found
  · exact fits m (Option.some.inj found)
  · exact h.sent found

theorem only_brief {p : Packet} (brief : p.isBrief = true) : ∀ q ∈ [p], q.Carriable :=
  List.forall_mem_singleton.2 (Packet.carriable_brief brief)

theorem reply_brief {ack : Packet} (brief : ack.isBrief = true) : ∀ p ∈ (e.reply ack).toList, p.Carriable := by
  unfold reply
  split
  · exact only_brief brief
  · exact List.forall_mem_nil _

/-! ## One move -/

/-- Whether a reaction sends only what can be carried, and leaves an endpoint that can go on so. -/
structure Sendable (r : Reaction) : Prop where
  after : Provided r.endpoint
  packets : ∀ q ∈ r.packets.toList, q.Carriable

theorem Sendable.andThen {r : Reaction} {next : Endpoint → Reaction} (first : Sendable r)
    (later : Sendable (next r.endpoint)) : Sendable (r.andThen next) where
  after := later.after
  packets := by
    intro q hq
    rw [Reaction.andThen, Array.toList_append, List.mem_append] at hq
    exact hq.elim (first.packets q) (later.packets q)

theorem Served.sendable {p : Packet} {r : Reaction} (served : Served e p r) (h : Provided e) (fits : p.Found) :
    Sendable r := by
  cases served with
  | levelZero => exact ⟨h, List.forall_mem_nil _⟩
  | levelOne => exact ⟨h, reply_brief rfl⟩
  | levelTwo _ _ _ _ held => subst held; exact ⟨h.withExchanges h.sent, reply_brief rfl⟩
  | again => exact ⟨h, only_brief rfl⟩
  | puback done =>
    obtain ⟨-, -, rfl⟩ := InFlight.onPuback_eq_ok.1 done
    exact ⟨h.erase _, List.forall_mem_nil _⟩
  | pubrec done =>
    obtain ⟨-, -, rfl⟩ := InFlight.onPubrec_eq_ok.1 done
    exact ⟨h.insert _ nofun, reply_brief rfl⟩
  | pubrel done =>
    obtain ⟨-, -, rfl⟩ := InFlight.onPubrel_eq_ok.1 done
    exact ⟨h.withExchanges h.sent, reply_brief rfl⟩
  | pubcomp done =>
    obtain ⟨-, -, rfl⟩ := InFlight.onPubcomp_eq_ok.1 done
    exact ⟨h.erase _, List.forall_mem_nil _⟩
  | @subscribe k subs =>
    refine ⟨⟨h.sent, fun {id n} found => ?_, h.held⟩, List.forall_mem_nil _⟩
    rw [getElem?_insert_id] at found
    split at found
    · cases found; exact fits.filters
    · exact h.subscribed found
  | unsubscribe => exact ⟨⟨h.sent, h.subscribed, h.held⟩, List.forall_mem_nil _⟩
  | pingreq => exact ⟨h, only_brief rfl⟩

theorem Granted.sendable {a : Action} {id : Option PacketId} {r : Reaction} (granted : Granted e a id r)
    (h : Provided e) (fits : (Input.action a).Fits) : Sendable r := by
  cases granted with
  | @publish topic payload qos dup retain m f name registers =>
    rcases InFlight.register_eq_ok.1 registers with ⟨level, rfl, rfl⟩ | ⟨level, id, -, rfl, rfl⟩
    · obtain rfl : qos = .atMostOnce := level
      refine ⟨h.withExchanges h.sent, ?_⟩
      exact List.forall_mem_singleton.2 (carriable_unnumbered name fits)
    · have carriable := @carriable_numbered topic payload qos dup retain id level name fits
      refine ⟨h.insert id ?_, List.forall_mem_singleton.2 carriable⟩
      rintro m ⟨⟩
      exact ⟨level, carriable⟩
  | retransmit repeats =>
    obtain ⟨-, ⟨m, found, rfl, rfl⟩ | ⟨-, rfl, rfl⟩⟩ := InFlight.retransmit_eq_ok.1 repeats
    · have again := (h.sent found).again
      refine ⟨h.insert _ ?_, List.forall_mem_singleton.2 again.carriable⟩
      rintro m ⟨⟩
      exact again
    · exact ⟨h.withExchanges h.sent, only_brief rfl⟩
  | @subscribeAcknowledge k codes due =>
    obtain ⟨some, room⟩ := h.subscribed due
    have answer := Packet.carriable_suback k some room
    refine ⟨⟨h.sent, fun {id n} found => ?_, h.held⟩, List.forall_mem_singleton.2 answer⟩
    rw [getElem?_erase_id] at found
    split at found
    · cases found
    · exact h.subscribed found
  | unsubscribeAcknowledge =>
    exact ⟨⟨h.sent, h.subscribed, h.held⟩, only_brief rfl⟩
  | publishAcknowledge | publishReceived | publishRelease | publishComplete =>
    exact ⟨h, only_brief rfl⟩

/-- Whether a deed comes of an input that fits. -/
def Deed.Fits : Deed → Prop
  | .input what => what.Fits
  | .welcome _ => True

/-- **Every move sends only what can be carried**, and keeps what later moves need for that. -/
theorem Move.sendable {now : Instant} {d : Deed} {answer : Option Answer} {r : Reaction}
    (move : Move now e d answer r) (h : Provided e) (fits : d.Fits) : Sendable r := by
  cases move with
  | ignored | idle | denied => exact ⟨h, List.forall_mem_nil _⟩
  | asked =>
    refine ⟨⟨h.sent, h.subscribed, fun {due held} asked => ?_⟩, List.forall_mem_nil _⟩
    cases asked
    simp
  | @deferred p due held phase asked =>
    refine ⟨⟨h.sent, h.subscribed, fun {due' held'} asked' => ?_⟩, List.forall_mem_nil _⟩
    cases asked'
    intro q hq
    rcases Array.mem_push.1 hq with hq | rfl
    · exact h.held asked q hq
    · exact fits
  | welcomed => exact ⟨⟨h.sent, h.subscribed, nofun⟩, only_brief (Bool.or_true _)⟩
  | served phase served => exact served.sendable (h.touched now) fits
  | granted phase granted => exact granted.sendable h fits
  | refused => exact ⟨provided_ended _, only_brief rfl⟩
  | ended => exact ⟨provided_ended _, List.forall_mem_nil _⟩

/-! ## Whole runs -/

theorem performAll_sendable (h : Provided e) (now : Instant) {ps : List Packet} (fits : ∀ p ∈ ps, p.Found) :
    Sendable (performAll now (ps.map fun p => .input (.packet p)) e) := by
  induction ps generalizing e with
  | nil => exact ⟨h, List.forall_mem_nil _⟩
  | cons p ps ih =>
    have move := perform_move (e := e) now (d := .input (.packet p)) trivial
    have first := move.sendable h (fits p List.mem_cons_self)
    rw [List.map_cons, performAll_cons]
    exact first.andThen (ih first.after fun q hq => fits q (List.mem_cons_of_mem p hq))

theorem step_sendable (h : Provided e) (now : Instant) {input : Input} (fits : input.Fits) :
    Sendable (e.step now input).2 := by
  rcases possible_or_accept e input with single | ⟨present, rfl, able⟩
  · exact (perform_move now single).sendable h fits
  · obtain ⟨due, held, asked, deeds⟩ := deeds_accept present able
    have first := (perform_move now (d := .welcome present) able).sendable h trivial
    have found : ∀ p ∈ held.toList, p.Found := fun p hp => h.held asked p (Array.mem_toList_iff.1 hp)
    rw [step_performAll, deeds, performAll_cons]
    exact first.andThen (performAll_sendable first.after now found)

theorem run_sendable (h : Provided e) {inputs : List (Instant × Input)} (fits : ∀ x ∈ inputs, x.2.Fits) :
    Sendable (e.run inputs) := by
  induction inputs generalizing e with
  | nil => exact ⟨h, List.forall_mem_nil _⟩
  | cons x rest ih =>
    obtain ⟨now, input⟩ := x
    have first := step_sendable h now (fits _ List.mem_cons_self)
    rw [run_cons]
    exact first.andThen (ih first.after fun x hx => fits x (List.mem_cons_of_mem _ hx))

end

end Endpoint
end MqttLink
