import MqttLink.Proofs.Wire.Layout
/-!
# Packets are read as they were written

`decode_write` is the round trip: a packet that the wire can carry is written, whatever the buffer
holds, and what was written is read as that packet, whatever follows it. The readers are taken through
the layout field by field; the flag bytes are the only places where several fields share a byte.
-/

namespace MqttLink

open Wire Wire.Field

namespace Packet

/-! ## CONNECT -/

/-- What the flag byte of a CONNECT stands for. -/
def connectFlags (c : Connect) : ConnectFlags where
  cleanSession := c.cleanSession
  will := c.will.isSome
  willQos := (c.will.map (·.qos)).getD .atMostOnce
  willRetain := (c.will.map (·.retain)).getD false
  password := c.password.isSome
  username := c.username.isSome

theorem ofByte_flagByte {c : Connect} (named : c.password.isSome = true → c.username.isSome = true) :
    ConnectFlags.ofByte c.flagByte = .ok (connectFlags c) := by
  obtain ⟨level, clientId, clean, keepAlive, username, password, will⟩ := c
  simp only [Connect.flagByte, connectFlags] at named ⊢
  generalize password.isSome = hasPassword at named ⊢
  generalize username.isSome = hasName at named ⊢
  cases will with
  | none => cases clean <;> cases hasPassword <;> cases hasName <;> first | rfl | simp at named
  | some w =>
    obtain ⟨topic, payload, qos, retain⟩ := w
    change ConnectFlags.ofByte (UInt8.ofNat (flagWeight clean 2 + (4 + 8 * qos.toNat + flagWeight retain 32) +
      flagWeight hasPassword 64 + flagWeight hasName 128)) =
        .ok ⟨clean, true, qos, retain, hasPassword, hasName⟩
    cases clean <;> cases hasPassword <;> cases hasName <;> cases qos <;> cases retain <;>
      first | rfl | simp at named

theorem reads_level (level : ProtocolLevel) :
    Reads readLevel (textBytes level.protocolName ++ [UInt8.ofNat level.toNat]) level := by
  have known : Reads (require (level.protocolName == ProtocolLevel.v311.protocolName ||
      level.protocolName == ProtocolLevel.v31.protocolName) .invalidProtocolName) [] () :=
    reads_require _ (by cases level <;> decide)
  have fits : (ProtocolLevel.ofNat? (UInt8.ofNat level.toNat).toNat).filter
      (·.protocolName == level.protocolName) = some level := by
    cases level <;> decide
  exact (reads_text (Connect.carries_protocolName level)).bind
    (known.bind ((reads_byte _).bind (reads_need _ fits)))

theorem reads_will {will : Option Will}
    (h : ∀ w, will = some w → Carries w.topic ∧ w.payload.length ≤ Topic.maxBytes) :
    Reads (optional will.isSome
        (readWill ((will.map (·.qos)).getD .atMostOnce) ((will.map (·.retain)).getD false)))
      (will.elim [] Will.layout) will := by
  cases will with
  | none => exact reads_pure none
  | some w =>
    obtain ⟨topic, payload⟩ := h w rfl
    have whole : Reads (readWill w.qos w.retain) w.layout w :=
      (reads_text topic).bind ((reads_block payload).result fun b => { w with payload := b })
    exact whole.result some

theorem readConnect_layout {c : Connect} (h : c.Carriable) : readBody readConnect c.layout = .ok c := by
  rw [Connect.layout, ← List.append_assoc]
  refine (reads_level c.level).andThen ((reads_byte _).andThen ?_)
  refine (reads_lift (ofByte_flagByte h.named)).check ((reads_word _).andThen ?_)
  refine (reads_text h.clientId).andThen ((reads_will h.will).andThen ?_)
  refine (reads_optional fun s hs => reads_text (h.username s hs)).andThen ?_
  have password := reads_optional fun b hb => reads_block (h.password b hb)
  rw [← List.append_nil (c.password.elim [] blockBytes)]
  exact password.andThen rfl

/-! ## PUBLISH -/

theorem flagWeight_split (dup retain : Bool) (qos : Qos) :
    (flagWeight dup 8 + 2 * qos.toNat + flagWeight retain 1).testBit 3 = dup ∧
      (flagWeight dup 8 + 2 * qos.toNat + flagWeight retain 1) / 2 % 4 = qos.toNat ∧
      (flagWeight dup 8 + 2 * qos.toNat + flagWeight retain 1).testBit 0 = retain := by
  cases dup <;> cases retain <;> cases qos <;> decide

/-- The three fields that share the head byte with the kind. -/
theorem flagBits_split (p : Publish) : p.flagBits.testBit 3 = p.dup ∧
    p.flagBits / 2 % 4 = p.qos.toNat ∧ p.flagBits.testBit 0 = p.retain :=
  flagWeight_split p.dup p.retain p.qos

/-- An identifier is there for the levels that need one, and for no other. -/
theorem reads_packetId {p : Publish} (h : p.Carriable) :
    Reads (optional p.qos.needsId word) (if p.qos.needsId then wordBytes (p.packetId.getD 0) else [])
      p.packetId := by
  cases hq : p.qos with
  | atMostOnce =>
    rw [(h.unnumbered hq).2]
    exact reads_pure none
  | atLeastOnce | exactlyOnce =>
    obtain ⟨id, hid⟩ := Option.isSome_iff_exists.1 (h.numbered (by rw [hq]; nofun))
    rw [hid]
    exact (reads_word id).result some

theorem readPublish_layout {p : Publish} (h : p.Carriable) :
    readBody (readPublish p.flagBits) p.layout = .ok p := by
  obtain ⟨dup, level, retain⟩ := flagBits_split p
  have qos : Qos.ofNat? (p.flagBits / 2 % 4) = some p.qos := by
    rw [level, Qos.ofNat?_toNat]
  have repeats : (!(p.qos == .atMostOnce && p.flagBits.testBit 3)) = true := by
    rw [dup]
    cases hq : p.qos with
    | atMostOnce => rw [(h.unnumbered hq).1]; rfl
    | atLeastOnce | exactlyOnce => rfl
  have plain : (!Topic.hasWildcard p.topic) = true := by rw [h.plain]; rfl
  rw [Publish.layout, readPublish]
  refine (reads_need _ qos).check ((reads_require _ repeats).check ?_)
  refine (reads_text h.topic).andThen ((reads_require _ plain).check ((reads_packetId h).andThen ?_))
  rw [dup, retain]
  rfl

/-! ## Filters and codes -/

theorem reads_filter {s : String} (h : CarriesFilter s) : Reads readFilter (textBytes s) s := by
  intro rest
  rw [readFilter, reads_text h.toCarries]
  simp only [h.nonempty, Bool.false_eq_true, if_false]

theorem reads_subscription {s : Subscription} (h : CarriesFilter s.filter) :
    Reads readSubscription (subscriptionBytes s) s := by
  intro rest
  have options : (UInt8.ofNat s.qos.toNat).toNat = s.qos.toNat := by cases s.qos <;> rfl
  have reserved : s.qos.toNat / 4 = 0 := by cases s.qos <;> rfl
  rw [subscriptionBytes, List.append_assoc, readSubscription, reads_filter h]
  simp only [List.singleton_append, options, reserved, ne_eq, not_true_eq_false, if_false,
    Qos.ofNat?_toNat]

theorem readSubackCode_toNat (c : SubackCode) : readSubackCode (UInt8.ofNat c.toNat) = .ok c := by
  cases c with
  | granted q => cases q <;> rfl
  | failure => rfl

theorem mapM_readSubackCode (codes : List SubackCode) :
    (codes.map fun c => UInt8.ofNat c.toNat).mapM readSubackCode = .ok codes := by
  induction codes with
  | nil => rfl
  | cons c codes ih => rw [List.map_cons, List.mapM_cons, readSubackCode_toNat, ih]; rfl

theorem readAcknowledgment_word (id : PacketId) : readAcknowledgment (wordBytes id) = .ok id := by
  have whole := (reads_word id) []
  rw [List.append_nil] at whole
  rw [readAcknowledgment, if_pos (length_wordBytes id), readBody, whole]

/-! ## Any packet -/

theorem word_append (id : PacketId) (rest : Bytes) : word (wordBytes id ++ rest) = .ok (id, rest) :=
  reads_word id rest

theorem readConnack_layout {present : Bool} {code : ConnectCode} (h : present = true → code = .accepted) :
    readConnack (layout (.connack present code)) = .ok (.connack present code) := by
  cases present with
  | true => rw [h rfl]; rfl
  | false => cases code <;> rfl

theorem readSubscribe_layout {id : PacketId} {subs : List Subscription} (nonempty : subs ≠ [])
    (h : ∀ s ∈ subs, CarriesFilter s.filter) :
    readSubscribe (layout (.subscribe id subs)) = .ok (.subscribe id subs) := by
  have items := many_layout (fun taken => by have := readSubscription_shorter taken; omega)
    fun s hs => reads_subscription (h s hs)
  simp only [layout, readSubscribe, word_append, Except.bind, bind, items]
  rw [if_neg (by simpa using nonempty)]
  rfl

theorem readUnsubscribe_layout {id : PacketId} {filters : List String} (nonempty : filters ≠ [])
    (h : ∀ f ∈ filters, CarriesFilter f) :
    readUnsubscribe (layout (.unsubscribe id filters)) = .ok (.unsubscribe id filters) := by
  have items := many_layout (fun taken => by have := readFilter_shorter taken; omega)
    fun f hf => reads_filter (h f hf)
  simp only [layout, readUnsubscribe, word_append, Except.bind, bind, items]
  rw [if_neg (by simpa using nonempty)]
  rfl

theorem readSuback_layout {id : PacketId} {codes : List SubackCode} (nonempty : codes ≠ []) :
    readSuback (layout (.suback id codes)) = .ok (.suback id codes) := by
  rw [layout, readSuback, word_append]
  simp only [Except.bind, bind, mapM_readSubackCode]
  cases codes with
  | nil => exact absurd rfl nonempty
  | cons c codes => rfl

/-- **The body of a packet is read as it is laid out.** -/
theorem readKind_layout {p : Packet} (h : p.Expressible) :
    readKind p.flagBits p.layout p.kind = .ok p := by
  cases p with
  | connect c => exact congrArg (·.map connect) (readConnect_layout h)
  | connack present code => exact readConnack_layout h
  | publish p => exact congrArg (·.map publish) (readPublish_layout h)
  | puback id => exact congrArg (·.map puback) (readAcknowledgment_word id)
  | pubrec id => exact congrArg (·.map pubrec) (readAcknowledgment_word id)
  | pubrel id => exact congrArg (·.map pubrel) (readAcknowledgment_word id)
  | pubcomp id => exact congrArg (·.map pubcomp) (readAcknowledgment_word id)
  | unsuback id => exact congrArg (·.map unsuback) (readAcknowledgment_word id)
  | subscribe id subs => exact readSubscribe_layout h.1 h.2
  | suback id codes => exact readSuback_layout h
  | unsubscribe id filters => exact readUnsubscribe_layout h.1 h.2
  | pingreq | pingresp | disconnect => rfl

theorem fixedFlags_lt (kind : PacketKind) : kind.fixedFlags < 16 := by
  cases kind <;> decide

/-- The flags of every kind but PUBLISH are fixed. -/
theorem flagBits_fixed {p : Packet} (other : p.kind ≠ .publish) : p.flagBits = p.kind.fixedFlags := by
  cases p with
  | publish p => exact absurd rfl other
  | _ => rfl

theorem flagBits_lt (p : Packet) : p.flagBits < 16 := by
  by_cases other : p.kind = .publish
  · cases p with
    | publish p =>
      have dup : flagWeight p.dup 8 ≤ 8 := by cases p.dup <;> decide
      have retain : flagWeight p.retain 1 ≤ 1 := by cases p.retain <;> decide
      have level := p.qos.toNat_lt
      change flagWeight p.dup 8 + 2 * p.qos.toNat + flagWeight p.retain 1 < 16
      omega
    | _ => cases other
  · rw [flagBits_fixed other]
    exact fixedFlags_lt _

theorem head_toNat (p : Packet) : p.head.toNat = 16 * p.kind.toNat + p.flagBits := by
  have kind : p.kind.toNat < 16 := by cases p.kind <;> decide
  have flags := p.flagBits_lt
  rw [head, UInt8.toNat_ofNat', Nat.mod_eq_of_lt (by omega)]

/-- The head byte holds the kind and the flags. -/
theorem ofFrame_layout {p : Packet} (h : p.Expressible) : ofFrame ⟨p.head, p.layout⟩ = .ok p := by
  have flags := p.flagBits_lt
  have kindCode : Frame.kindCode ⟨p.head, p.layout⟩ = p.kind.toNat := by
    rw [Frame.kindCode, head_toNat]
    omega
  have flagBits : Frame.flags ⟨p.head, p.layout⟩ = p.flagBits := by
    rw [Frame.flags, head_toNat]
    omega
  have fixed : ¬ (p.kind ≠ .publish ∧ p.flagBits ≠ p.kind.fixedFlags) :=
    fun ⟨other, differ⟩ => differ (flagBits_fixed other)
  rw [ofFrame, kindCode, PacketKind.ofNat?_toNat]
  simp only [flagBits, if_neg fixed]
  exact readKind_layout h

end Packet

/-! ## Buffers -/

namespace Wire

/-- The frame that was written is found, whatever follows it. -/
theorem read_frame {limit : Nat} {head : UInt8} {length : UInt32} {body : Bytes} (rest : Bytes)
    (whole : length.toNat = body.length) (small : body.length ≤ Length.maxLength)
    (within : body.length ≤ limit) :
    Frame.read limit ([head] ++ (Length.groups 4 length ++ body) ++ rest) =
      .frame ⟨head, body⟩ ([head] ++ (Length.groups 4 length ++ body)).length := by
  have found : splitAt? body.length (body ++ rest) = some (body, rest) :=
    splitAt?_eq_some_iff.2 ⟨rfl, rfl⟩
  rw [List.append_assoc, List.append_assoc, List.singleton_append, Frame.read,
    Length.read_groups _ (whole ▸ small)]
  simp only [whole, List.drop_left, found, if_neg (Nat.not_lt.2 within)]
  simp only [List.length_append, List.length_singleton, Nat.add_assoc]

theorem decode_bytes {p : Packet} (h : p.Carriable) {limit : Nat} (within : p.bodyLength ≤ limit)
    (rest : Bytes) : decode limit (p.bytes ++ rest) = .packet p p.bytes.length := by
  have length := p.length_layout
  have small : p.layout.length ≤ Length.maxLength := length ▸ h.small
  rw [decode, Packet.bytes, read_frame rest (Packet.announced_toNat h.small) small (length ▸ within)]
  simp only [Packet.ofFrame_layout h.content]

/-- **A packet that the wire can carry is read as it was written.** It is put behind whatever is in the
buffer, and what was put there is read as the same packet, whatever follows it, unless the reader's
limit is below the length of its body; the limit that no one has set is not. -/
theorem decode_write {p : Packet} (h : p.Carriable) :
    ∃ bytes, (∀ buffer, p.write buffer = (.ok (), buffer ++ bytes)) ∧
      ∀ rest, decode Length.maxLength (bytes ++ rest) = .packet p bytes.length ∧
        ∀ limit, p.bodyLength ≤ effectiveLimit limit →
          decode (effectiveLimit limit) (bytes ++ rest) = .packet p bytes.length := by
  have written : Writes p.write () p.bytes := Packet.writes_packet h
  refine ⟨p.bytes, written, ?_⟩
  intro rest
  have read : ∀ {limit}, p.bodyLength ≤ limit → decode limit (p.bytes ++ rest) = .packet p p.bytes.length :=
    fun within => decode_bytes h within rest
  exact ⟨read h.small, fun _ within => read within⟩

/-- A CONNECT with every optional field. -/
def loaded : Packet :=
  .connect ⟨.v311, "c", true, 60, some "u", some [1, 2], some ⟨"w", [3], .atLeastOnce, true⟩⟩

theorem loaded_decode_write : loaded.Carriable ∧
    ∃ bytes, loaded.write [7] = (.ok (), 7 :: bytes) ∧
      decode 100 (bytes ++ [9]) = .packet loaded bytes.length := by
  have text : ∀ s ∈ ["c", "w", "u"], Carries s := by
    intro s hs
    simp only [List.mem_cons, List.not_mem_nil, or_false] at hs
    rcases hs with rfl | rfl | rfl <;> exact ⟨by decide, by decide⟩
  have carriable : loaded.Carriable := by
    refine ⟨⟨text "c" (by simp), ?_, ?_, ?_, fun _ => rfl⟩, by decide⟩
    · rintro w ⟨⟩; exact ⟨text "w" (by simp), by decide⟩
    · rintro s ⟨⟩; exact text "u" (by simp)
    · rintro b ⟨⟩; decide
  obtain ⟨bytes, writes, reads⟩ := decode_write carriable
  exact ⟨carriable, bytes, writes [7], (reads [9]).2 100 (by decide)⟩

end Wire
end MqttLink
