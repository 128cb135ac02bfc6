import MqttLink.Proofs.Wire.Accepted
/-!
# Packets are written as they were read

`decode_canonical` is the other half of the round trip: the bytes that a packet was read from are the
bytes that it is written as. Only two things are not kept: a length field that is longer than it need
be becomes the shortest, and a refused CONNACK loses its claim to a session. So whatever is read keeps
the rules of the format, and two frames that are read as the same packet differ in the length field at
most.
-/

namespace MqttLink

open Wire Wire.Field

namespace Packet

/-! ## One frame for each packet -/

/-- The body with which a packet is written again after it has been read from this one: a refused
CONNACK loses its session-present bit. -/
def rewritten : Packet → Bytes → Bytes
  | connack _ code, flags :: rest => (if code.isAccepted then flags else flags &&& 0xFE) :: rest
  | _, body => body

/-- The reserved bits in a packet's body are zero: the lowest of CONNECT's flags, and those about a
will that is not there; all but the lowest of CONNACK's flags; the upper six bits beside each filter of
SUBSCRIBE. -/
def ReservedClear : Packet → Bytes → Prop
  | connect c, body =>
    ∃ flags rest, body = textBytes c.level.protocolName ++ UInt8.ofNat c.level.toNat :: flags :: rest ∧
      flags.toNat % 2 = 0 ∧ (c.will = none → flags.toNat / 4 % 16 = 0)
  | connack _ _, body => ∃ flags code, body = [flags, code] ∧ flags.toNat / 2 = 0
  | subscribe id subs, body =>
    ∃ options : Subscription → UInt8, (∀ s, (options s).toNat / 4 = 0) ∧
      body = wordBytes id ++ subs.flatMap fun s => textBytes s.filter ++ [options s]
  | _, _ => True

theorem rewritten_received (p : Packet) : p.rewritten p.received = p.settled.layout := by
  cases p with
  | connack present code => cases present <;> cases code <;> rfl
  | connect | publish | puback | pubrec | pubrel | pubcomp | subscribe | suback | unsubscribe |
    unsuback | pingreq | pingresp | disconnect => rfl

theorem flagByte_reserved (c : Connect) :
    c.flagByte.toNat % 2 = 0 ∧ (c.will = none → c.flagByte.toNat / 4 % 16 = 0) := by
  obtain ⟨level, clientId, clean, keepAlive, username, password, will⟩ := c
  simp only [Connect.flagByte]
  generalize password.isSome = hasPassword
  generalize username.isSome = hasName
  cases will with
  | none => cases clean <;> cases hasPassword <;> cases hasName <;> exact ⟨rfl, fun _ => rfl⟩
  | some w =>
    obtain ⟨topic, payload, qos, retain⟩ := w
    refine ⟨?_, by simp⟩
    change (UInt8.ofNat (flagWeight clean 2 + (4 + 8 * qos.toNat + flagWeight retain 32) +
      flagWeight hasPassword 64 + flagWeight hasName 128)).toNat % 2 = 0
    cases clean <;> cases hasPassword <;> cases hasName <;> cases qos <;> cases retain <;> rfl

theorem received_reserved (p : Packet) : p.ReservedClear p.received := by
  cases p with
  | connect c =>
    obtain ⟨lowest, unwilled⟩ := flagByte_reserved c
    exact ⟨c.flagByte, _, rfl, lowest, unwilled⟩
  | connack present code => exact ⟨_, _, rfl, by cases present <;> rfl⟩
  | subscribe id subs =>
    have upper : ∀ q : Qos, (UInt8.ofNat q.toNat).toNat / 4 = 0 := by
      intro q
      cases q <;> rfl
    exact ⟨fun s => UInt8.ofNat s.qos.toNat, fun s => upper s.qos, rfl⟩
  | publish | puback | pubrec | pubrel | pubcomp | suback | unsubscribe | unsuback | pingreq |
    pingresp | disconnect => trivial

theorem length_received (p : Packet) : p.received.length = p.bodyLength := by
  cases p with
  | connack present code => rfl
  | connect | publish | puback | pubrec | pubrel | pubcomp | subscribe | suback | unsubscribe |
    unsuback | pingreq | pingresp | disconnect => rw [← length_layout]; rfl

/-- The body of a packet is what it is received as. -/
theorem readKind_eq_ok {flags : Nat} {body : Bytes} {kind : PacketKind} {p : Packet} (small : flags < 16)
    (fixed : kind ≠ .publish → flags = kind.fixedFlags) (h : readKind flags body kind = .ok p) :
    p.kind = kind ∧ p.flagBits = flags ∧ body = p.received ∧ p.settled.Expressible := by
  cases kind with
  | connect =>
    obtain ⟨c, read, rfl⟩ := map_eq_ok.1 h
    exact ⟨rfl, (fixed (by decide)).symm, readConnect_eq_ok read⟩
  | publish =>
    obtain ⟨m, read, rfl⟩ := map_eq_ok.1 h
    obtain ⟨same, bits, carriable⟩ := readPublish_eq_ok small read
    exact ⟨rfl, bits, same, carriable⟩
  | connack =>
    obtain ⟨present, code, rfl, same⟩ := readConnack_eq_ok h
    refine ⟨rfl, (fixed (by decide)).symm, same, ?_⟩
    cases present <;> cases code <;> simp [settled, Expressible, ConnectCode.isAccepted]
  | subscribe =>
    obtain ⟨id, subs, rfl, same, ok⟩ := readSubscribe_eq_ok h
    exact ⟨rfl, (fixed (by decide)).symm, same, ok⟩
  | suback =>
    obtain ⟨id, codes, rfl, same, ok⟩ := readSuback_eq_ok h
    exact ⟨rfl, (fixed (by decide)).symm, same, ok⟩
  | unsubscribe =>
    obtain ⟨id, filters, rfl, same, ok⟩ := readUnsubscribe_eq_ok h
    exact ⟨rfl, (fixed (by decide)).symm, same, ok⟩
  | puback | pubrec | pubrel | pubcomp | unsuback =>
    obtain ⟨id, read, rfl⟩ := map_eq_ok.1 h
    exact ⟨rfl, (fixed (by decide)).symm, readAcknowledgment_eq_ok read, trivial⟩
  | pingreq | pingresp | disconnect =>
    obtain ⟨rfl, rfl⟩ := readNothing_eq_ok h
    exact ⟨rfl, (fixed (by decide)).symm, rfl, trivial⟩

/-- **A packet is read from one frame only.** -/
theorem ofFrame_eq_ok {f : Frame} {p : Packet} (h : ofFrame f = .ok p) :
    f = ⟨p.head, p.received⟩ ∧ p.settled.Expressible := by
  rw [ofFrame] at h
  split at h
  · cases h
  · rename_i kind known
    split at h
    · cases h
    · rename_i fits
      have fixed : kind ≠ .publish → f.flags = kind.fixedFlags :=
        fun other => Classical.byContradiction fun differ => fits ⟨other, differ⟩
      obtain ⟨rfl, bits, same, ok⟩ := readKind_eq_ok (Nat.mod_lt _ (by decide)) fixed h
      have number : f.head.toNat / 16 = p.kind.toNat := PacketKind.ofNat?_eq_some_iff.1 known
      have head : p.head = f.head := by
        rw [← UInt8.toNat_inj, head_toNat, bits, ← number]
        exact Nat.div_add_mod _ _
      exact ⟨by rw [head, ← same], ok⟩

end Packet

/-! ## Buffers -/

namespace Wire

/-- What a buffer begins with if a packet is read from it. -/
theorem decode_eq_packet {limit size : Nat} {buffer : Bytes} {p : Packet}
    (h : decode limit buffer = .packet p size) :
    p.settled.Expressible ∧ ∃ field rest, buffer = p.head :: (field ++ p.received) ++ rest ∧
      Length.Spells field p.received.length ∧ p.received.length ≤ limit ∧
      size = 1 + field.length + p.received.length := by
  rw [decode] at h
  split at h
  · cases h
  · cases h
  · rename_i f size' found
    split at h
    · rename_i q read
      cases h
      obtain ⟨rfl, ok⟩ := Packet.ofFrame_eq_ok read
      exact ⟨ok, read_eq_frame found⟩
    · cases h

theorem take_frame {head : UInt8} {field body rest : Bytes} :
    (head :: (field ++ body) ++ rest).take (1 + field.length + body.length) = head :: (field ++ body) := by
  rw [List.take_append_of_le_length, List.take_of_length_le] <;>
    simp only [List.length_cons, List.length_append] <;> omega

/-- **A packet is written as it was read.** What it was read from is a head, a length field and a body
within the limit; and it is written as the same head, the shortest field for the same length, and the
same body, but for the session-present bit of a refused CONNACK. So a packet that is read is one that
can be written: its texts hold no null character, a topic no wildcard, the lists and the filters in them
are not empty, a password comes with a user name. Its reserved bits are zero, nothing trails behind its
fields, and any other frame that is read as the same packet differs in its length field only. -/
theorem decode_canonical {limit size : Nat} {buffer : Bytes} {p : Packet}
    (h : decode limit buffer = .packet p size) :
    ∃ head field body,
      (buffer.take size = head :: (field ++ body) ∧ size = 1 + field.length + body.length ∧
        1 ≤ field.length ∧ Length.Spells field body.length ∧ body.length ≤ limit) ∧
      (∃ short, Length.Shortest short body.length ∧
        ∀ before, p.write before = (.ok (), before ++ head :: (short ++ p.rewritten body))) ∧
      (p.settled.Carriable ∧ (p.kind ≠ .publish → head.toNat % 16 = p.kind.fixedFlags) ∧
        p.ReservedClear body ∧ body.length = p.bodyLength) ∧
      ∀ limit' buffer' size', decode limit' buffer' = .packet p size' →
        ∃ field', buffer'.take size' = head :: (field' ++ body) ∧ Length.Spells field' body.length := by
  obtain ⟨ok, field, rest, rfl, spells, within, rfl⟩ := decode_eq_packet h
  have settled : p.settled.bodyLength = p.received.length := by
    rw [Packet.length_received]
    cases p <;> rfl
  have carriable : p.settled.Carriable := ⟨ok, settled ▸ spells.le⟩
  have announced : p.settled.announced.toNat = p.received.length := by
    rw [Packet.announced_toNat carriable.small, Packet.length_layout, settled]
  refine ⟨p.head, field, p.received, ⟨take_frame, rfl, spells.width_pos, spells, within⟩, ?_, ?_, ?_⟩
  · refine ⟨Length.groups 4 p.settled.announced, ?_, fun before => ?_⟩
    · exact announced ▸ Length.groups_shortest (announced ▸ spells.le)
    · have written := Packet.writes_packet carriable before
      have head : p.settled.head = p.head := by cases p <;> rfl
      rw [Packet.write_settled, Packet.bytes, head, ← Packet.rewritten_received] at written
      exact written
  · refine ⟨carriable, fun other => ?_, p.received_reserved, p.length_received⟩
    rw [Packet.head_toNat, Packet.flagBits_fixed other]
    have := Packet.fixedFlags_lt p.kind
    omega
  · intro limit' buffer' size' h'
    obtain ⟨-, field', rest', rfl, spells', -, rfl⟩ := decode_eq_packet h'
    exact ⟨field', take_frame, spells'⟩

/-- A refused CONNACK that claims a session, behind a length field of two bytes where one would do. -/
def claiming : Bytes := [0x20, 0x82, 0x00, 0x01, 0x05, 0xC0]

theorem claiming_canonical :
    decode 100 claiming = .packet (.connack true .notAuthorized) 5 ∧
      (Packet.connack true .notAuthorized).write [7] = (.ok (), [7, 0x20, 0x02, 0x00, 0x05]) ∧
      ∃ head field body, claiming.take 5 = head :: (field ++ body) ∧ Length.Spells field body.length := by
  have read : decode 100 claiming = .packet (.connack true .notAuthorized) 5 := by decide
  obtain ⟨head, field, body, ⟨taken, -, -, spells, -⟩, -⟩ := decode_canonical read
  exact ⟨read, rfl, head, field, body, taken, spells⟩

end Wire
end MqttLink
