import MqttLink.Proofs.Wire.Field
import MqttLink.Proofs.Wire.Length
/-!
# How packets are laid out

The bytes of a body, field by field, as a function of the packet, and the blocks among them that stand
behind a length of their own. A body whose blocks all fit their lengths is written just so (`lays_body`),
and the length that is announced for it, which is added up beforehand, is the length of what is written
(`length_layout`).
-/

namespace MqttLink

open Wire Wire.Field

/-! ## CONNECT -/

/-- A will, as it is laid out. -/
def Will.layout (w : Will) : Bytes := textBytes w.topic ++ blockBytes w.payload

/-- The blocks of a will. -/
def Will.blocks (w : Will) : List Bytes := [encodeUtf8 w.topic, w.payload]

namespace Connect

/-- The body of a CONNECT, as it is laid out. -/
def layout (c : Connect) : Bytes :=
  textBytes c.level.protocolName ++ ([UInt8.ofNat c.level.toNat] ++ ([c.flagByte] ++
    (wordBytes c.keepAlive ++ (textBytes c.clientId ++ (c.will.elim [] Will.layout ++
      (c.username.elim [] textBytes ++ c.password.elim [] blockBytes))))))

/-- The blocks of a CONNECT. -/
def blocks (c : Connect) : List Bytes :=
  encodeUtf8 c.level.protocolName :: encodeUtf8 c.clientId :: (c.will.elim [] Will.blocks ++
    (c.username.elim [] (fun s => [encodeUtf8 s]) ++ c.password.elim [] fun b => [b]))

/-- A CONNECT that the wire can carry. -/
structure Carriable (c : Connect) : Prop where
  clientId : Carries c.clientId
  will : ∀ w, c.will = some w → Carries w.topic ∧ w.payload.length ≤ Topic.maxBytes
  username : ∀ s, c.username = some s → Carries s
  password : ∀ b, c.password = some b → b.length ≤ Topic.maxBytes
  named : c.password.isSome = true → c.username.isSome = true

theorem carries_protocolName (level : ProtocolLevel) : Carries level.protocolName := by
  cases level <;> exact ⟨by decide, by decide⟩

theorem length_layout (c : Connect) : c.layout.length = c.bodyLength := by
  obtain ⟨level, clientId, clean, keepAlive, username, password, will⟩ := c
  simp only [layout, bodyLength, List.length_append, length_textBytes, length_wordBytes,
    List.length_singleton]
  cases will <;> cases username <;> cases password <;>
    simp [Will.layout, length_textBytes, length_blockBytes] <;> omega

theorem lays_body (c : Connect) : Lays c.putBody c.blocks c.layout := by
  refine (lays_text c.level.protocolName).bind ?_
  refine (writes_byte _).lays.bind ((writes_byte _).lays.bind ((writes_word _).lays.bind ?_))
  refine (lays_text c.clientId).bind ((lays_optional (fun w => ?_) c.will).bind ?_)
  · exact (lays_text w.topic).bind (lays_block w.payload)
  · exact (lays_optional lays_text c.username).bind (lays_optional lays_block c.password)

theorem Carriable.fit {c : Connect} (h : c.Carriable) : Fit c.blocks := by
  have will : Fit (c.will.elim [] Will.blocks) := fit_optional fun w hw =>
    fit_append.2 ⟨fit_singleton.2 (h.will w hw).1.short, fit_singleton.2 (h.will w hw).2⟩
  have username : Fit (c.username.elim [] fun s => [encodeUtf8 s]) :=
    fit_optional fun s hs => fit_singleton.2 (h.username s hs).short
  have password : Fit (c.password.elim [] fun b => [b]) :=
    fit_optional fun b hb => fit_singleton.2 (h.password b hb)
  refine List.forall_mem_cons.2 ⟨(carries_protocolName c.level).short, ?_⟩
  exact List.forall_mem_cons.2 ⟨h.clientId.short, fit_append.2 ⟨will, fit_append.2 ⟨username, password⟩⟩⟩

end Connect

/-! ## PUBLISH -/

namespace Publish

/-- The body of a PUBLISH, as it is laid out. -/
def layout (p : Publish) : Bytes :=
  textBytes p.topic ++ ((if p.qos.needsId then wordBytes (p.packetId.getD 0) else []) ++ p.payload)

/-- A PUBLISH that the wire can carry. Level 0 has neither an identifier nor repeats. -/
structure Carriable (p : Publish) : Prop where
  topic : Carries p.topic
  plain : Topic.hasWildcard p.topic = false
  unnumbered : p.qos = .atMostOnce → p.dup = false ∧ p.packetId = none
  numbered : p.qos ≠ .atMostOnce → p.packetId.isSome = true

theorem length_layout (p : Publish) : p.layout.length = p.bodyLength := by
  simp only [layout, bodyLength, List.length_append, length_textBytes, apply_ite List.length,
    length_wordBytes, List.length_nil]
  omega

theorem lays_body (p : Publish) : Lays p.putBody [encodeUtf8 p.topic] p.layout := by
  refine (lays_text p.topic).bind ?_
  cases p.qos.needsId with
  | false => exact (writes_put p.payload).lays
  | true => exact ((writes_word _).bind (writes_put p.payload)).lays

end Publish

/-! ## Any packet -/

namespace Packet

/-- A requested subscription, as it is laid out. -/
def subscriptionBytes (s : Subscription) : Bytes := textBytes s.filter ++ [UInt8.ofNat s.qos.toNat]

/-- The body of a packet, as it is laid out. -/
def layout : Packet → Bytes
  | connect c => c.layout
  | connack present code =>
    [UInt8.ofNat (flagWeight (present && code.isAccepted) 1)] ++ [UInt8.ofNat code.toNat]
  | publish p => p.layout
  | puback id | pubrec id | pubrel id | pubcomp id | unsuback id => wordBytes id
  | subscribe id subs => wordBytes id ++ subs.flatMap subscriptionBytes
  | suback id codes => wordBytes id ++ codes.map fun c => UInt8.ofNat c.toNat
  | unsubscribe id filters => wordBytes id ++ filters.flatMap textBytes
  | pingreq | pingresp | disconnect => []

/-- The blocks of a packet. -/
def blocks : Packet → List Bytes
  | connect c => c.blocks
  | publish p => [encodeUtf8 p.topic]
  | subscribe _ subs => subs.flatMap fun s => [encodeUtf8 s.filter]
  | unsubscribe _ filters => filters.flatMap fun f => [encodeUtf8 f]
  | connack _ _ | puback _ | pubrec _ | pubrel _ | pubcomp _ | suback _ _ | unsuback _
  | pingreq | pingresp | disconnect => []

/-- A filter that the wire can carry. -/
structure CarriesFilter (s : String) : Prop extends Carries s where
  nonempty : s.isEmpty = false

/-- A packet whose content the wire can carry. -/
def Expressible : Packet → Prop
  | connect c => c.Carriable
  | connack present code => present = true → code = .accepted
  | publish p => p.Carriable
  | subscribe _ subs => subs ≠ [] ∧ ∀ s ∈ subs, CarriesFilter s.filter
  | suback _ codes => codes ≠ []
  | unsubscribe _ filters => filters ≠ [] ∧ ∀ f ∈ filters, CarriesFilter f
  | puback _ | pubrec _ | pubrel _ | pubcomp _ | unsuback _ | pingreq | pingresp | disconnect => True

/-- A packet that the wire can carry. -/
structure Carriable (p : Packet) : Prop where
  content : p.Expressible
  small : p.bodyLength ≤ Length.maxLength

theorem length_flatMap_total {α : Type} (f : α → Bytes) (l : List α) :
    (l.flatMap f).length = total (l.map fun a => (f a).length) := by
  induction l with
  | nil => rfl
  | cons a l ih => rw [List.flatMap_cons, List.length_append, ih]; rfl

/-- **The length that is announced is the length of what is written.** -/
theorem length_layout (p : Packet) : p.layout.length = p.bodyLength := by
  cases p with
  | connect c => exact c.length_layout
  | publish p => exact p.length_layout
  | subscribe id subs =>
    simp only [layout, bodyLength, List.length_append, length_wordBytes, length_flatMap_total,
      subscriptionBytes, length_textBytes, List.length_singleton]
  | unsubscribe id filters =>
    simp only [layout, bodyLength, List.length_append, length_wordBytes, length_flatMap_total,
      length_textBytes]
  | suback id codes => rw [layout, bodyLength, List.length_append, length_wordBytes, List.length_map]
  | _ => rfl

/-- **What is written is the layout**, or nothing but its beginning if a block is too long. -/
theorem lays_body (p : Packet) : Lays p.putBody p.blocks p.layout := by
  cases p with
  | connect c => exact c.lays_body
  | connack present code => exact ((writes_byte _).bind (writes_byte _)).lays
  | publish p => exact p.lays_body
  | puback id | pubrec id | pubrel id | pubcomp id | unsuback id => exact (writes_word id).lays
  | subscribe id subs =>
    refine (writes_word id).lays.bind (lays_list (fun s => ?_) subs)
    exact (lays_text s.filter).bind (writes_byte _).lays
  | suback id codes =>
    have codeBytes := lays_list (fun c : SubackCode => (writes_byte (UInt8.ofNat c.toNat)).lays) codes
    rw [List.flatMap_eq_nil_iff.2 fun _ _ => rfl, ← List.map_eq_flatMap] at codeBytes
    exact (writes_word id).lays.bind codeBytes
  | unsubscribe id filters => exact (writes_word id).lays.bind (lays_list lays_text filters)
  | pingreq | pingresp | disconnect => exact (writes_pure ()).lays

theorem fit_blocks {p : Packet} (h : p.Expressible) : Fit p.blocks := by
  cases p with
  | connect c => exact Connect.Carriable.fit h
  | publish p => exact fit_singleton.2 h.topic.short
  | subscribe id subs => exact List.forall_mem_flatMap.2 fun s hs => fit_singleton.2 (h.2 s hs).short
  | unsubscribe id filters => exact List.forall_mem_flatMap.2 fun f hf => fit_singleton.2 (h.2 f hf).short
  | _ => exact fit_nil

/-- The length of the body as it is announced. -/
def announced (p : Packet) : UInt32 := UInt32.ofNat p.bodyLength

theorem announced_toNat {p : Packet} (small : p.bodyLength ≤ Length.maxLength) :
    p.announced.toNat = p.layout.length := by
  rw [announced, length_layout, UInt32.toNat_ofNat',
    Nat.mod_eq_of_lt (Nat.lt_of_le_of_lt small (by decide))]

/-- All bytes of a packet. -/
def bytes (p : Packet) : Bytes := [p.head] ++ (Length.groups 4 p.announced ++ p.layout)

theorem writes_length {v : UInt32} (fits : v.toNat ≤ Length.maxLength) :
    Writes (Length.write v) (Length.groups 4 v).length (Length.groups 4 v) := by
  intro buffer
  rw [Length.write, if_neg (Nat.not_lt.2 fits)]
  rfl

theorem writes_whole {p : Packet} (small : p.announced.toNat ≤ Length.maxLength) (fit : Fit p.blocks) :
    Writes p.write () p.bytes :=
  (writes_byte _).bind ((writes_length small).bind (p.lays_body.whole fit))

/-- **A packet that the wire can carry is written**, behind whatever is in the buffer. -/
theorem writes_packet {p : Packet} (h : p.Carriable) : Writes p.write () p.bytes := by
  have small : p.announced.toNat ≤ Length.maxLength := by
    rw [announced_toNat h.small, length_layout]
    exact h.small
  exact writes_whole small (fit_blocks h.content)

end Packet
end MqttLink
