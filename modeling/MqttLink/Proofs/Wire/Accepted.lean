import MqttLink.Proofs.Wire.Grammar
import MqttLink.Proofs.Wire.RoundTrip
/-!
# What packets are read from

Every packet is read from one body only, `Packet.received`, and only if its content is in order.
Nothing in a body goes by unnoticed: a byte is a field of the packet, or fixed by its kind. The one
place where this is not the body that the packet is written with is a refused CONNACK that claims a
session; `Packet.settled` is the packet without that claim.
-/

namespace MqttLink

open Wire Wire.Field

namespace Packet

/-- A packet as it is written: a refused CONNACK claims no session. -/
def settled : Packet → Packet
  | connack present code => connack (present && code.isAccepted) code
  | p => p

/-- The body that a packet is read from. -/
def received : Packet → Bytes
  | connack present code => [UInt8.ofNat (flagWeight present 1), UInt8.ofNat code.toNat]
  | p => p.layout

theorem write_settled (p : Packet) : p.settled.write = p.write := by
  cases p with
  | connack present code => simp only [settled, write, putBody, Bool.and_assoc, Bool.and_self]; rfl
  | _ => rfl

/-! ## CONNECT -/

/-- The byte that announces these fields. -/
def ConnectFlags.byte (f : ConnectFlags) : UInt8 :=
  UInt8.ofNat <|
    flagWeight f.cleanSession 2 +
    (if f.will then 4 + 8 * f.willQos.toNat + flagWeight f.willRetain 32 else 0) +
    flagWeight f.password 64 +
    flagWeight f.username 128

/-- Flags that go together. -/
structure ConnectFlags.Consistent (f : ConnectFlags) : Prop where
  named : f.password = true → f.username = true
  level : f.will = false → f.willQos = .atMostOnce
  retain : f.will = false → f.willRetain = false

instance (f : ConnectFlags) : Decidable f.Consistent :=
  decidable_of_iff
    ((f.password = true → f.username = true) ∧ (f.will = false → f.willQos = .atMostOnce) ∧
      (f.will = false → f.willRetain = false))
    ⟨fun ⟨n, l, r⟩ => ⟨n, l, r⟩, fun ⟨n, l, r⟩ => ⟨n, l, r⟩⟩

theorem ofByte_eq_ok {b : UInt8} {f : ConnectFlags} (h : ConnectFlags.ofByte b = .ok f) :
    f.byte = b ∧ f.Consistent := by
  have all : ∀ n : Fin 256, (ConnectFlags.ofByte (UInt8.ofNat n.val)).toOption.all
      (fun f => f.byte = UInt8.ofNat n.val ∧ f.Consistent) = true := by
    decide +kernel
  have here := all ⟨b.toNat, b.toNat_lt⟩
  simp only [UInt8.ofNat_toNat, h, Except.toOption, Option.all_some, decide_eq_true_eq] at here
  exact here

theorem flagByte_eq (c : Connect) : c.flagByte = (connectFlags c).byte := by
  obtain ⟨level, clientId, clean, keepAlive, username, password, will⟩ := c
  cases will <;> rfl

theorem accepts_level : Accepts readLevel
    (fun level => textBytes level.protocolName ++ [UInt8.ofNat level.toNat]) fun _ => True := by
  intro body rest level h
  obtain ⟨name, b₁, hname, h⟩ := bind_eq_ok.1 h
  obtain ⟨_, b₂, hknown, h⟩ := bind_eq_ok.1 h
  obtain ⟨code, b₃, hcode, h⟩ := bind_eq_ok.1 h
  obtain ⟨rfl, -⟩ := accepts_text hname
  obtain ⟨-, rfl⟩ := require_eq_ok.1 hknown
  obtain ⟨rfl, -⟩ := accepts_byte hcode
  obtain ⟨found, rfl⟩ := need_eq_ok.1 h
  obtain ⟨number, same⟩ := Option.filter_eq_some_iff.1 found
  obtain rfl : level.protocolName = name := eq_of_beq same
  have byte : UInt8.ofNat level.toNat = code := by
    rw [← ProtocolLevel.ofNat?_eq_some_iff.1 number, UInt8.ofNat_toNat]
  simp only [byte, List.append_assoc, and_true]
  rfl

theorem accepts_will (qos : Qos) (retain : Bool) : Accepts (readWill qos retain) Will.layout
    fun w => (Carries w.topic ∧ w.payload.length ≤ Topic.maxBytes) ∧ w.qos = qos ∧ w.retain = retain := by
  intro body rest w h
  obtain ⟨topic, b₁, htopic, h⟩ := bind_eq_ok.1 h
  obtain ⟨payload, b₂, hpayload, h⟩ := bind_eq_ok.1 h
  obtain ⟨rfl, rfl⟩ := pure_eq_ok.1 h
  obtain ⟨rfl, carries⟩ := accepts_text htopic
  obtain ⟨rfl, short⟩ := accepts_block hpayload
  exact ⟨(List.append_assoc ..).symm, ⟨carries, short⟩, rfl, rfl⟩

theorem readConnect_eq_ok {body : Bytes} {c : Connect} (h : readBody readConnect body = .ok c) :
    body = c.layout ∧ c.Carriable := by
  obtain ⟨end_, h⟩ := readBody_eq_ok.1 h
  obtain ⟨level, b₁, hlevel, h⟩ := bind_eq_ok.1 h
  obtain ⟨flagByte, b₂, hbyte, h⟩ := bind_eq_ok.1 h
  obtain ⟨flags, b₃, hflags, h⟩ := bind_eq_ok.1 h
  obtain ⟨keepAlive, b₄, hkeep, h⟩ := bind_eq_ok.1 h
  obtain ⟨clientId, b₅, hclient, h⟩ := bind_eq_ok.1 h
  obtain ⟨will, b₆, hwill, h⟩ := bind_eq_ok.1 h
  obtain ⟨username, b₇, husername, h⟩ := bind_eq_ok.1 h
  obtain ⟨password, b₈, hpassword, h⟩ := bind_eq_ok.1 h
  obtain ⟨trailing, b₉, htrailing, h⟩ := bind_eq_ok.1 h
  obtain ⟨_, b₁₀, hempty, h⟩ := bind_eq_ok.1 h
  obtain ⟨rfl, -⟩ := pure_eq_ok.1 h
  obtain ⟨rfl, -⟩ := accepts_level hlevel
  obtain ⟨rfl, -⟩ := accepts_byte hbyte
  obtain ⟨announced, rfl⟩ := lift_eq_ok.1 hflags
  obtain ⟨rfl, -⟩ := accepts_word hkeep
  obtain ⟨rfl, client⟩ := accepts_text hclient
  obtain ⟨rfl, willThere, willOk⟩ := accepts_optional (accepts_will _ _) hwill
  obtain ⟨rfl, nameThere, nameOk⟩ := accepts_optional accepts_text husername
  obtain ⟨rfl, passwordThere, passwordOk⟩ := accepts_optional accepts_block hpassword
  obtain ⟨rfl, rfl⟩ := remainder_eq_ok.1 htrailing
  obtain rfl : b₈ = [] := List.isEmpty_iff.1 (require_eq_ok.1 hempty).1
  obtain ⟨byte, consistent⟩ := ofByte_eq_ok announced
  refine ⟨?_, client, fun w hw => (willOk w hw).1, nameOk, passwordOk, ?_⟩
  · -- the flag byte is the only byte that is no field of its own
    have same : connectFlags ⟨level, clientId, flags.cleanSession, keepAlive, username, password, will⟩ =
        flags := by
      obtain ⟨clean, hasWill, qos, retain, hasPassword, hasName⟩ := flags
      cases will with
      | none =>
        obtain rfl : false = hasWill := willThere
        obtain rfl : qos = .atMostOnce := consistent.level rfl
        obtain rfl : retain = false := consistent.retain rfl
        simp only [connectFlags, nameThere, passwordThere]
        rfl
      | some w =>
        obtain rfl : true = hasWill := willThere
        obtain ⟨-, rfl, rfl⟩ := willOk w rfl
        simp only [connectFlags, nameThere, passwordThere]
        rfl
    simp only [Connect.layout, flagByte_eq, same, byte, List.append_assoc, List.append_nil]
  · intro secret
    exact nameThere.trans (consistent.named (passwordThere.symm.trans secret))

/-! ## PUBLISH -/

theorem readPublish_eq_ok {flags : Nat} {body : Bytes} {p : Publish} (small : flags < 16)
    (h : readBody (readPublish flags) body = .ok p) :
    body = p.layout ∧ p.flagBits = flags ∧ p.Carriable := by
  obtain ⟨end_, h⟩ := readBody_eq_ok.1 h
  obtain ⟨qos, b₁, hqos, h⟩ := bind_eq_ok.1 h
  obtain ⟨_, b₂, hrepeats, h⟩ := bind_eq_ok.1 h
  obtain ⟨topic, b₃, htopic, h⟩ := bind_eq_ok.1 h
  obtain ⟨_, b₄, hplain, h⟩ := bind_eq_ok.1 h
  obtain ⟨packetId, b₅, hid, h⟩ := bind_eq_ok.1 h
  obtain ⟨payload, b₆, hpayload, h⟩ := bind_eq_ok.1 h
  obtain ⟨rfl, -⟩ := pure_eq_ok.1 h
  obtain ⟨known, rfl⟩ := need_eq_ok.1 hqos
  obtain ⟨repeats, rfl⟩ := require_eq_ok.1 hrepeats
  obtain ⟨rfl, carries⟩ := accepts_text htopic
  obtain ⟨plain, rfl⟩ := require_eq_ok.1 hplain
  obtain ⟨rfl, idThere, -⟩ := accepts_optional accepts_word hid
  obtain ⟨rfl, rfl⟩ := remainder_eq_ok.1 hpayload
  have level : flags / 2 % 4 = qos.toNat := Qos.ofNat?_eq_some_iff.1 known
  refine ⟨?_, ?_, carries, by simpa using plain, ?_, ?_⟩
  · cases packetId with
    | none =>
      have unnumbered : qos.needsId = false := idThere.symm
      simp [Publish.layout, unnumbered]
    | some id =>
      have numbered : qos.needsId = true := idThere.symm
      simp [Publish.layout, numbered]
  · have all : ∀ n : Fin 16, flagWeight (n.val.testBit 3) 8 + 2 * (n.val / 2 % 4) +
        flagWeight (n.val.testBit 0) 1 = n.val := by decide
    rw [Publish.flagBits, ← level]
    exact all ⟨flags, small⟩
  · rintro rfl
    exact ⟨by simpa using repeats, by simpa [Qos.needsId] using idThere⟩
  · intro higher
    change packetId.isSome = true
    rw [idThere]
    cases qos with
    | atMostOnce => exact absurd rfl higher
    | _ => rfl

/-! ## Filters and codes -/

theorem accepts_filter : Accepts readFilter textBytes CarriesFilter := by
  intro body rest s h
  rw [readFilter] at h
  split at h
  · cases h
  · rename_i taken
    split at h
    · cases h
    · rename_i nonempty
      cases h
      obtain ⟨split, carries⟩ := accepts_text taken
      exact ⟨split, carries, Bool.eq_false_iff.2 nonempty⟩

theorem accepts_subscription : Accepts readSubscription subscriptionBytes
    fun s => CarriesFilter s.filter := by
  intro body rest s h
  rw [readSubscription] at h
  split at h
  · cases h
  · cases h
  · rename_i filter options after taken
    split at h
    · cases h
    · split at h
      · cases h
      · rename_i qos known
        cases h
        obtain ⟨rfl, ok⟩ := accepts_filter taken
        have level : options.toNat = qos.toNat := Qos.ofNat?_eq_some_iff.1 known
        refine ⟨?_, ok⟩
        rw [subscriptionBytes, ← level, UInt8.ofNat_toNat, List.append_assoc]
        rfl

theorem readSubackCode_eq_ok {b : UInt8} {c : SubackCode} (h : readSubackCode b = .ok c) :
    b = UInt8.ofNat c.toNat := by
  rw [readSubackCode] at h
  split at h
  · rename_i found
    cases h
    rw [← SubackCode.ofNat?_eq_some_iff.1 found, UInt8.ofNat_toNat]
  · cases h

theorem mapM_readSubackCode_eq_ok {body : Bytes} {codes : List SubackCode}
    (h : body.mapM readSubackCode = .ok codes) : body = codes.map fun c => UInt8.ofNat c.toNat := by
  induction body generalizing codes with
  | nil => cases h; rfl
  | cons b body ih =>
    rw [List.mapM_cons] at h
    obtain ⟨c, first, h⟩ := chain_eq_ok.1 h
    obtain ⟨others, rest, h⟩ := chain_eq_ok.1 h
    cases h
    rw [List.map_cons, ← readSubackCode_eq_ok first, ← ih rest]

theorem readAcknowledgment_eq_ok {body : Bytes} {id : PacketId} (h : readAcknowledgment body = .ok id) :
    body = wordBytes id := by
  rw [readAcknowledgment] at h
  split at h
  · rename_i two
    obtain ⟨rest, taken⟩ := readBody_eq_ok.1 h
    obtain ⟨rfl, -⟩ := accepts_word taken
    rw [List.length_append, length_wordBytes, Nat.add_eq_left] at two
    rw [List.eq_nil_of_length_eq_zero two, List.append_nil]
  · cases h

theorem readConnack_eq_ok {body : Bytes} {p : Packet} (h : readConnack body = .ok p) :
    ∃ present code, p = connack present code ∧ body = p.received := by
  unfold readConnack at h
  split at h
  · rename_i flags code
    split at h
    · cases h
    · rename_i reserved
      split at h
      · rename_i c known
        cases h
        refine ⟨_, _, rfl, ?_⟩
        have number : code.toNat = c.toNat := ConnectCode.ofNat?_eq_some_iff.1 known
        have bit : flagWeight (flags.toNat % 2 == 1) 1 = flags.toNat := by
          rw [flagWeight]
          split
          · rename_i set
            have := eq_of_beq set
            omega
          · rename_i clear
            have := mt beq_iff_eq.2 clear
            omega
        rw [received, bit, ← number, UInt8.ofNat_toNat, UInt8.ofNat_toNat]
      · cases h
  · cases h

/-- An identifier and items behind it, of which there is at least one. -/
theorem items_eq_ok {α : Type} {item : Reader α} {bytes : α → Bytes} {valid : α → Prop}
    (accepts : Accepts item bytes valid)
    (shorter : ∀ {body x rest}, item body = .ok (x, rest) → rest.length < body.length)
    {make : PacketId → List α → Packet} {error : DecodeError} {body : Bytes} {p : Packet}
    (h : (do
      let (id, rest) ← word body
      let l ← many item shorter #[] rest
      if l.isEmpty then .error error else return make id l) = .ok p) :
    ∃ id l, p = make id l ∧ body = wordBytes id ++ l.flatMap bytes ∧ l ≠ [] ∧ ∀ a ∈ l, valid a := by
  obtain ⟨⟨id, rest⟩, taken, h⟩ := chain_eq_ok.1 h
  obtain ⟨l, items, h⟩ := chain_eq_ok.1 h
  split at h
  · cases h
  · rename_i nonempty
    cases h
    obtain ⟨rfl, -⟩ := accepts_word taken
    obtain ⟨more, rfl, rfl, ok⟩ := accepts_many accepts shorter items
    exact ⟨id, _, rfl, rfl, by simpa using nonempty, ok⟩

theorem readSubscribe_eq_ok {body : Bytes} {p : Packet} (h : readSubscribe body = .ok p) :
    ∃ id subs, p = subscribe id subs ∧ body = p.layout ∧ p.Expressible := by
  obtain ⟨id, subs, rfl, same, ok⟩ := items_eq_ok accepts_subscription
    (fun taken => by have := readSubscription_shorter taken; omega) h
  exact ⟨id, subs, rfl, same, ok⟩

theorem readUnsubscribe_eq_ok {body : Bytes} {p : Packet} (h : readUnsubscribe body = .ok p) :
    ∃ id filters, p = unsubscribe id filters ∧ body = p.layout ∧ p.Expressible := by
  obtain ⟨id, filters, rfl, same, ok⟩ := items_eq_ok accepts_filter
    (fun taken => by have := readFilter_shorter taken; omega) h
  exact ⟨id, filters, rfl, same, ok⟩

theorem readSuback_eq_ok {body : Bytes} {p : Packet} (h : readSuback body = .ok p) :
    ∃ id codes, p = suback id codes ∧ body = p.layout ∧ p.Expressible := by
  obtain ⟨⟨id, rest⟩, taken, h⟩ := chain_eq_ok.1 h
  dsimp only at h
  split at h
  · cases h
  · rename_i nonempty
    obtain ⟨codes, items, h⟩ := chain_eq_ok.1 h
    cases h
    obtain ⟨rfl, -⟩ := accepts_word taken
    obtain rfl := mapM_readSubackCode_eq_ok items
    exact ⟨id, codes, rfl, rfl, show codes ≠ [] by simpa using nonempty⟩

theorem readNothing_eq_ok {p q : Packet} {body : Bytes} (h : readNothing q body = .ok p) :
    p = q ∧ body = [] := by
  rw [readNothing] at h
  split at h
  · rename_i empty
    cases h
    exact ⟨rfl, List.isEmpty_iff.1 empty⟩
  · cases h

end Packet
end MqttLink
