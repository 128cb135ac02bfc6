import MqttLink.Proofs.Wire.Accepted
import MqttLink.Proofs.Wire.Cursor
/-!
# No place outside a packet is looked at

The whole decoder by position: the head and the length of a packet are looked at in the buffer, its fields in the
body, at positions that the fields before them have led to. Each cursor follows the reader of the same fields,
so the decoder comes to what `decode` comes to, and never to `Stop.outside` (`decode_inRange`). The two loops go
on while the position is inside the body; every turn brings it at least three bytes further (`turn_within`), so
they end with the position at the end of the body (`loop_many`).
-/

namespace MqttLink.Wire.Cursor

open Packet (ConnectFlags)

variable {α : Type}

/-! ## Bodies by position -/

/-- The protocol level that a CONNECT asks for. -/
def level : Cursor ProtocolLevel := do
  let name ← text
  lift (test (name == ProtocolLevel.v311.protocolName || name == ProtocolLevel.v31.protocolName)
    .invalidProtocolName)
  let code ← byte
  let sort := ProtocolLevel.ofNat? code.toNat
  lift (known (sort.filter (·.protocolName == name)) (.unsupportedProtocolVersion code))

/-- The will's topic and payload. -/
def will (qos : Qos) (retain : Bool) : Cursor Will := do
  let topic ← text
  let payload ← block
  return { topic, payload, qos, retain }

/-- The body of a CONNECT. -/
def connect : Cursor Connect := do
  let level ← level
  let flagByte ← byte
  let flags ← lift (ConnectFlags.ofByte flagByte)
  let keepAlive ← word
  let clientId ← text
  let will ← optional flags.will (will flags.willQos flags.willRetain)
  let username ← optional flags.username text
  let password ← optional flags.password block
  finish (.malformed .trailingConnectBytes)
  let cleanSession := flags.cleanSession
  return { level, clientId, cleanSession, keepAlive, username, password, will }

/-- The body of a PUBLISH with the given flags. -/
def publish (flags : Nat) : Cursor Publish := do
  let dup := flags.testBit 3
  let level := flags / 2 % 4
  let qos ← lift (known (Qos.ofNat? level) (.invalidQos (UInt8.ofNat level)))
  lift (test (!(qos == .atMostOnce && dup)) (.malformed .dupWithoutQos))
  let topic ← text
  lift (test (!Topic.hasWildcard topic) (.malformed .topicWildcard))
  let packetId ← optional qos.needsId word
  let payload ← remainder
  return { dup, qos, retain := flags.testBit 0, topic, packetId, payload }

/-- The filter of a subscription or unsubscription. -/
def filter : Cursor String := do
  let s ← text
  lift (test (!s.isEmpty) (.malformed .emptyFilter))
  return s

/-- One requested subscription. -/
def subscription : Cursor Subscription := do
  let filter ← filter
  let options ← byte
  lift (test (options.toNat / 4 == 0) (.malformed .reservedQosBits))
  let qos ← lift (known (Qos.ofNat? options.toNat) (.invalidQos options))
  return ⟨filter, qos⟩

/-! ## They follow the readers -/

theorem follows_word : Follows word Field.word := fronts_word.follows

theorem follows_block : Follows block Field.block := fronts_block.follows

theorem follows_text : Follows text Field.text := fronts_text.follows

theorem follows_remainder : Follows remainder Field.remainder := by
  apply Fronts.follows
  constructor
  · intro bytes e h
    cases h
  · intro bytes x consumed h
    cases h
    simp [Field.remainder]

theorem follows_level : Follows level Packet.readLevel := by
  apply follows_text.bind
  intro name
  apply (follows_require _ _).bind
  intro _
  apply follows_byte.bind
  intro code
  exact follows_need _ _

theorem follows_will (qos : Qos) (retain : Bool) : Follows (will qos retain) (Packet.readWill qos retain) := by
  apply follows_text.bind
  intro topic
  apply follows_block.bind
  intro payload
  exact follows_pure _

/-- At the end of a body nothing is left to be read. -/
theorem follows_finish (error : DecodeError) {β : Type} {next : Cursor β} {next' : Reader β}
    (h : Follows next next') : Follows (finish error >>= fun _ => next)
      (Field.remainder >>= fun trailing => require trailing.isEmpty error >>= fun _ => next') := by
  intro body pos within
  rw [bind_cursor, bind_reader]
  by_cases atEnd : pos = body.length
  · subst atEnd
    have ended : finish error body body.length = .ok ((), body.length) := by simp [finish]
    have nothing : body.drop body.length = [] := List.drop_length
    have follows := h body body.length within
    rw [nothing] at follows ⊢
    rw [ended]
    exact follows
  · have trailing : finish error body pos = .error (.fault error) := by simp [finish, atEnd]
    have some : (body.drop pos).isEmpty = false := by
      rw [List.isEmpty_eq_false_iff, ne_eq, List.drop_eq_nil_iff]
      omega
    have left : Field.remainder (body.drop pos) = .ok (body.drop pos, []) := rfl
    rw [trailing, left]
    simp only [Except.bind, bind_reader, require, some, Bool.false_eq_true, if_false]
    exact .fault error

theorem follows_connect : Follows connect Packet.readConnect := by
  apply follows_level.bind
  intro level
  apply follows_byte.bind
  intro flagByte
  apply follows_lift.bind
  intro flags
  apply follows_word.bind
  intro keepAlive
  apply follows_text.bind
  intro clientId
  apply (follows_optional (follows_will _ _) _).bind
  intro will
  apply (follows_optional follows_text _).bind
  intro username
  apply (follows_optional follows_block _).bind
  intro password
  exact follows_finish _ (follows_pure _)

theorem follows_publish (flags : Nat) : Follows (publish flags) (Packet.readPublish flags) := by
  apply (follows_need _ _).bind
  intro qos
  apply (follows_require _ _).bind
  intro _
  apply follows_text.bind
  intro topic
  apply (follows_require _ _).bind
  intro _
  apply (follows_optional follows_word _).bind
  intro packetId
  apply follows_remainder.bind
  intro payload
  exact follows_pure _

theorem readFilter_eq : Packet.readFilter = do
    let s ← Field.text
    require (!s.isEmpty) (.malformed .emptyFilter)
    return s := by
  funext body
  unfold Packet.readFilter
  rw [bind_reader]
  cases Field.text body with
  | error e => rfl
  | ok found =>
    obtain ⟨s, rest⟩ := found
    simp only [Except.bind, bind_reader, require]
    cases s.isEmpty <;> rfl

theorem follows_filter : Follows filter Packet.readFilter := by
  rw [readFilter_eq]
  apply follows_text.bind
  intro s
  apply (follows_require _ _).bind
  intro _
  exact follows_pure _

theorem readSubscription_eq : Packet.readSubscription = do
    let filter ← Packet.readFilter
    let options ← Field.byte
    require (options.toNat / 4 == 0) (.malformed .reservedQosBits)
    let qos ← need (Qos.ofNat? options.toNat) (.invalidQos options)
    return ⟨filter, qos⟩ := by
  funext body
  unfold Packet.readSubscription
  rw [bind_reader]
  cases Packet.readFilter body with
  | error e => rfl
  | ok found =>
    obtain ⟨filter, rest⟩ := found
    cases rest with
    | nil => rfl
    | cons options rest =>
      simp only [Except.bind, bind_reader, Field.byte, require, beq_iff_eq, ne_eq, ite_not]
      by_cases clear : options.toNat / 4 = 0
      · simp only [clear, if_true, need]
        cases Qos.ofNat? options.toNat <;> rfl
      · simp only [clear, if_false]

theorem follows_subscription : Follows subscription Packet.readSubscription := by
  rw [readSubscription_eq]
  apply follows_filter.bind
  intro filter
  apply follows_byte.bind
  intro options
  apply (follows_require _ _).bind
  intro _
  apply (follows_need _ _).bind
  intro qos
  exact follows_pure _

/-! ## The loops -/

/-- A reader that takes at least so many bytes takes a cursor as far. -/
theorem Follows.onward {c : Cursor α} {r : Reader α} (h : Follows c r) {least : Nat}
    (takes : ∀ {body x rest}, r body = .ok (x, rest) → rest.length + least ≤ body.length)
    {body : Bytes} {pos next : Nat} {x : α} (within : pos ≤ body.length) (found : c body pos = .ok (x, next)) :
    pos + least ≤ next ∧ next ≤ body.length := by
  have together := h body pos within
  rw [found] at together
  generalize result : r (body.drop pos) = b at together
  cases together with
  | found x ahead inside =>
    have shorter := takes result
    rw [List.length_drop, List.length_drop] at shorter
    omega

/-- A filter takes up at least three bytes: it is not empty. -/
theorem readFilter_three {body rest : Bytes} {s : String} (h : Packet.readFilter body = .ok (s, rest)) :
    rest.length + 3 ≤ body.length := by
  obtain ⟨rfl, content⟩ := Packet.accepts_filter h
  have size : 1 ≤ s.utf8ByteSize := by
    have nonempty := content.nonempty
    simp only [String.isEmpty, beq_eq_false_iff_ne, ne_eq] at nonempty
    omega
  rw [List.length_append, Field.length_textBytes]
  omega

theorem readFilter_less {body rest : Bytes} {s : String} (h : Packet.readFilter body = .ok (s, rest)) :
    rest.length < body.length := by
  have := readFilter_three h
  omega

theorem readSubscription_less {body rest : Bytes} {s : Subscription}
    (h : Packet.readSubscription body = .ok (s, rest)) : rest.length < body.length := by
  have := Packet.readSubscription_shorter h
  omega

/-- **Every turn of either loop takes at least three bytes, all of which are there.** -/
theorem turn_within {body : Bytes} {pos : Nat} (within : pos ≤ body.length) :
    (∀ s next, filter body pos = .ok (s, next) → pos + 3 ≤ next ∧ next ≤ body.length) ∧
    ∀ s next, subscription body pos = .ok (s, next) → pos + 3 ≤ next ∧ next ≤ body.length := by
  constructor
  · intro s next found
    exact follows_filter.onward readFilter_three within found
  · intro s next found
    exact follows_subscription.onward Packet.readSubscription_shorter within found

theorem filter_onward {body : Bytes} {pos next : Nat} {s : String} (within : pos < body.length)
    (found : filter body pos = .ok (s, next)) : pos < next := by
  have turn := (turn_within (Nat.le_of_lt within)).1 s next found
  omega

theorem subscription_onward {body : Bytes} {pos next : Nat} {s : Subscription} (within : pos < body.length)
    (found : subscription body pos = .ok (s, next)) : pos < next := by
  have turn := (turn_within (Nat.le_of_lt within)).2 s next found
  omega

section

variable {item : Cursor α} {item' : Reader α}
  {onward : ∀ {body pos x next}, pos < body.length → item body pos = .ok (x, next) → pos < next}
  {shorter : ∀ {body x rest}, item' body = .ok (x, rest) → rest.length < body.length}

theorem loop_end {body : Bytes} {pos : Nat} (found : Array α) (past : body.length ≤ pos) :
    loop item onward found body pos = .ok (found, pos) := by
  rw [loop, dif_neg (by omega)]

theorem loop_fault {body : Bytes} {pos : Nat} {e : Stop} (found : Array α) (within : pos < body.length)
    (stops : item body pos = .error e) : loop item onward found body pos = .error e := by
  rw [loop, dif_pos within]
  split
  · rename_i h
    cases stops.symm.trans h
    rfl
  · rename_i h
    cases stops.symm.trans h

theorem loop_next {body : Bytes} {pos next : Nat} {x : α} (found : Array α) (within : pos < body.length)
    (taken : item body pos = .ok (x, next)) :
    loop item onward found body pos = loop item onward (found.push x) body next := by
  rw [loop, dif_pos within]
  split
  · rename_i h
    cases taken.symm.trans h
  · rename_i h
    cases taken.symm.trans h
    rfl

theorem many_fault {b : UInt8} {tail : Bytes} {e : DecodeError} (found : Array α)
    (stops : item' (b :: tail) = .error e) : Field.many item' shorter found (b :: tail) = .error e := by
  rw [Field.many]
  split
  · rename_i h
    cases stops.symm.trans h
    rfl
  · rename_i h
    cases stops.symm.trans h

theorem many_next {b : UInt8} {tail rest : Bytes} {x : α} (found : Array α)
    (taken : item' (b :: tail) = .ok (x, rest)) :
    Field.many item' shorter found (b :: tail) = Field.many item' shorter (found.push x) rest := by
  rw [Field.many]
  split
  · rename_i h
    cases taken.symm.trans h
  · rename_i h
    cases taken.symm.trans h
    rfl

variable (onward shorter) in
/-- **A loop finds the items that a reader finds, and ends at the end of the body**, or with the same fault. -/
theorem loop_many (h : Follows item item') {body : Bytes} {pos : Nat} (found : Array α)
    (within : pos ≤ body.length) :
    loop item onward found body pos =
      match Field.many item' shorter found (body.drop pos) with
      | .ok l => .ok (l.toArray, body.length)
      | .error e => .error (.fault e) := by
  generalize left : body.length - pos = n
  induction n using Nat.strongRecOn generalizing pos found with
  | ind n ih =>
    by_cases inside : pos < body.length
    · have together := h body pos within
      rw [List.drop_eq_getElem_cons inside] at together ⊢
      generalize taken : item body pos = a at together
      generalize taken' : item' (body[pos] :: body.drop (pos + 1)) = b at together
      cases together with
      | fault e => rw [loop_fault found inside taken, many_fault found taken']
      | @found x next ahead inside' =>
        have further := onward inside taken
        rw [loop_next found inside taken, many_next found taken']
        exact ih (body.length - next) (by omega) (found.push x) inside' rfl
    · have atEnd : pos = body.length := by omega
      rw [loop_end found (by omega), atEnd, List.drop_length, Field.many]

end

/-! ## Packets by position -/

/-- An identifier and the items behind it. -/
def items (item : Cursor α)
    (onward : ∀ {body pos x next}, pos < body.length → item body pos = .ok (x, next) → pos < next)
    (make : PacketId → List α → Packet) (none : DecodeError) (body : Bytes) : Except Stop Packet :=
  match Front.word body with
  | .error e => .error (.fault e)
  | .ok id =>
    match loop item onward #[] body 2 with
    | .error e => .error e
    | .ok (found, _) => if found.isEmpty then .error (.fault none) else .ok (make id found.toList)

/-- The body of a CONNACK. -/
def connack (body : Bytes) : Except Stop Packet :=
  if body.length ≠ 2 then .error (.fault (.malformed .connackLength))
  else do
    let flags ← byteAt body 0
    if flags.toNat / 2 ≠ 0 then .error (.fault .invalidFlags)
    else do
      let code ← byteAt body 1
      match ConnectCode.ofNat? code.toNat with
      | some c => .ok (.connack (flags.toNat % 2 == 1) c)
      | none => .error (.fault (.invalidReturnCode code))

/-- The body of a SUBACK. -/
def suback (body : Bytes) : Except Stop Packet :=
  if body.length < 3 then .error (.fault .insufficientData)
  else do
    let id ← (Front.word body).mapError .fault
    let codes ← sliceFrom body 2
    let outcomes ← (codes.mapM Packet.readSubackCode).mapError .fault
    return .suback id outcomes

/-- The body of an acknowledgment. -/
def acknowledgment (body : Bytes) : Except Stop PacketId :=
  if body.length ≠ 2 then .error (.fault (.malformed .acknowledgmentLength))
  else (Front.word body).mapError .fault

/-- The body of a packet of any kind. -/
def readKind (flags : Nat) (body : Bytes) : PacketKind → Except Stop Packet
  | .connect => (connect.run body).map .connect
  | .connack => connack body
  | .publish => ((publish flags).run body).map .publish
  | .puback => (acknowledgment body).map .puback
  | .pubrec => (acknowledgment body).map .pubrec
  | .pubrel => (acknowledgment body).map .pubrel
  | .pubcomp => (acknowledgment body).map .pubcomp
  | .subscribe => items subscription subscription_onward .subscribe (.malformed .noSubscription) body
  | .suback => suback body
  | .unsubscribe => items filter filter_onward .unsubscribe (.malformed .noUnsubscription) body
  | .unsuback => (acknowledgment body).map .unsuback
  | .pingreq => (Packet.readNothing .pingreq body).mapError .fault
  | .pingresp => (Packet.readNothing .pingresp body).mapError .fault
  | .disconnect => (Packet.readNothing .disconnect body).mapError .fault

/-- The packet with a head and a body. -/
def ofFrame (head : UInt8) (body : Bytes) : Except Stop Packet :=
  let code := head.toNat / 16
  let flags := head.toNat % 16
  match PacketKind.ofNat? code with
  | none => .error (.fault (.invalidPacketType (UInt8.ofNat code)))
  | some kind =>
    if kind ≠ .publish ∧ flags ≠ kind.fixedFlags then .error (.fault .invalidFlags)
    else readKind flags body kind

/-- The packet at the start of a buffer. A fault of the packet is an answer; only a place that is not there is
an error. -/
def decode (limit : Nat) (buffer : Bytes) : Except Stop Decoded :=
  if buffer.length < 2 then .ok .incomplete
  else do
    let head ← byteAt buffer 0
    let tail ← sliceFrom buffer 1
    match Length.read tail with
    | .incomplete => return .incomplete
    | .invalid => return .fault .invalidRemainingLength
    | .value length width =>
      let total := 1 + width + length.toNat
      if length.toNat > limit then return .fault .packetTooLarge
      else if buffer.length < total then return .incomplete
      else do
        let body ← slice buffer (1 + width) total
        match ofFrame head body with
        | .ok p => return .packet p total
        | .error (.fault e) => return .fault e
        | .error .outside => .error .outside

/-! ## It comes to the same -/

theorem Follows.run_eq {c : Cursor α} {r : Reader α} (h : Follows c r) (body : Bytes) :
    c.run body = (readBody r body).mapError .fault := by
  have together := h body 0 (Nat.zero_le _)
  rw [List.drop_zero] at together
  unfold run readBody
  generalize c body 0 = a at together
  generalize r body = b at together
  cases together with
  | fault e => rfl
  | found x ahead within => rfl

theorem items_eq {item : Cursor α} {item' : Reader α} (h : Follows item item')
    (onward : ∀ {body pos x next}, pos < body.length → item body pos = .ok (x, next) → pos < next)
    (shorter : ∀ {body x rest}, item' body = .ok (x, rest) → rest.length < body.length)
    (make : PacketId → List α → Packet) (none : DecodeError) (body : Bytes) :
    items item onward make none body = Except.mapError .fault (do
      let (id, rest) ← Field.word body
      let l ← Field.many item' shorter #[] rest
      if l.isEmpty then .error none else return make id l) := by
  unfold items
  rw [word_eq]
  cases number : Front.word body with
  | error e => rfl
  | ok id =>
    simp only [loop_many onward shorter h #[] (word_length number), Except.map, bind, Except.bind]
    cases Field.many item' shorter #[] (body.drop 2) with
    | error e => rfl
    | ok l => cases l <;> rfl

theorem acknowledgment_eq (body : Bytes) :
    acknowledgment body = (Packet.readAcknowledgment body).mapError .fault := by
  unfold acknowledgment Packet.readAcknowledgment readBody
  by_cases two : body.length = 2
  · simp only [two, ne_eq, not_true_eq_false, if_false, if_true, word_eq]
    cases Front.word body <;> rfl
  · simp only [two, ne_eq, not_false_eq_true, if_true, if_false]
    rfl

theorem connack_eq (body : Bytes) : connack body = (Packet.readConnack body).mapError .fault := by
  unfold connack Packet.readConnack
  match body with
  | [] | [_] | _ :: _ :: _ :: _ => rfl
  | [flags, code] =>
    simp only [List.length_cons, List.length_nil, byteAt]
    by_cases clear : flags.toNat / 2 = 0
    · cases known : ConnectCode.ofNat? code.toNat <;> simp [clear, known, bind, Except.bind] <;> rfl
    · simp [clear, bind, Except.bind]
      rfl

theorem suback_eq (body : Bytes) : suback body = (Packet.readSuback body).mapError .fault := by
  unfold suback Packet.readSuback
  match body with
  | [] | [_] | [_, _] => rfl
  | high :: low :: code :: codes =>
    have size : ¬ (high :: low :: code :: codes).length < 3 := by simp
    rw [if_neg size, sliceFrom_eq (by simp)]
    simp only [Front.word, Field.word, bind, Except.bind, List.drop_succ_cons, List.drop_zero, List.isEmpty_cons,
      Bool.false_eq_true, if_false]
    cases (code :: codes).mapM Packet.readSubackCode <;> rfl

theorem readKind_eq (flags : Nat) (body : Bytes) (kind : PacketKind) :
    readKind flags body kind = (Packet.readKind flags body kind).mapError .fault := by
  have mapped {β : Type} (make : β → Packet) (result : Except DecodeError β) :
      (result.mapError Stop.fault).map make = (result.map make).mapError .fault := by
    cases result <;> rfl
  cases kind with
  | connect => simp only [readKind, Packet.readKind, follows_connect.run_eq, mapped]
  | connack => exact connack_eq body
  | publish => simp only [readKind, Packet.readKind, (follows_publish flags).run_eq, mapped]
  | subscribe =>
    exact items_eq follows_subscription subscription_onward readSubscription_less _ _ body
  | suback => exact suback_eq body
  | unsubscribe => exact items_eq follows_filter filter_onward readFilter_less _ _ body
  | pingreq | pingresp | disconnect => rfl
  | _ => simp only [readKind, Packet.readKind, acknowledgment_eq, mapped]

theorem ofFrame_eq (head : UInt8) (body : Bytes) :
    ofFrame head body = (Packet.ofFrame ⟨head, body⟩).mapError .fault := by
  unfold ofFrame Packet.ofFrame Frame.kindCode Frame.flags
  cases known : PacketKind.ofNat? (head.toNat / 16) with
  | none => simp only [known]; rfl
  | some kind =>
    simp only [known, readKind_eq]
    by_cases wrong : kind ≠ .publish ∧ head.toNat % 16 ≠ kind.fixedFlags
    · rw [if_pos wrong, if_pos wrong]
      rfl
    · rw [if_neg wrong, if_neg wrong]

/-- The body of a frame is there, and is where the reader looks for it, exactly if the buffer is long enough. -/
theorem splitAt?_body (head : UInt8) {tail : Bytes} {width length : Nat} (field : width ≤ tail.length) :
    splitAt? length (tail.drop width) =
      if (head :: tail).length < 1 + width + length then none
      else some (((head :: tail).take (1 + width + length)).drop (1 + width), tail.drop (width + length)) := by
  have inside : ((head :: tail).take (1 + width + length)).drop (1 + width) = (tail.drop width).take length := by
    rw [List.drop_take, Nat.add_sub_cancel_left, Nat.add_comm 1 width, List.drop_succ_cons]
  by_cases short : (head :: tail).length < 1 + width + length
  · unfold splitAt?
    rw [if_pos short, if_neg]
    simp only [List.length_take, List.length_drop, List.length_cons] at short ⊢
    omega
  · rw [if_neg short, splitAt?_eq_some_iff, inside, ← List.drop_drop, List.take_append_drop, List.length_take,
      List.length_drop]
    simp only [List.length_cons] at short
    exact ⟨rfl, by omega⟩

/-- **Reading by position comes to what reading comes to.** -/
theorem decode_eq (limit : Nat) (buffer : Bytes) : decode limit buffer = .ok (Wire.decode limit buffer) := by
  match buffer with
  | [] | [_] => rfl
  | head :: b :: tail =>
    have two : ¬ (head :: b :: tail).length < 2 := by simp
    have first : byteAt (head :: b :: tail) 0 = .ok head := rfl
    have others : sliceFrom (head :: b :: tail) 1 = .ok (b :: tail) := sliceFrom_eq (by simp)
    simp only [decode, Wire.decode, Frame.read, if_neg two, first, others, bind, Except.bind]
    cases field : Length.read (b :: tail) with
    | incomplete => rfl
    | invalid => rfl
    | value length width =>
      have within : width ≤ (b :: tail).length := by
        have := (Length.readFrom_width field).2
        omega
      simp only [splitAt?_body head within]
      by_cases large : length.toNat > limit
      · simp only [if_pos large]
        rfl
      · by_cases short : (head :: b :: tail).length < 1 + width + length.toNat
        · simp only [if_neg large, if_pos short]
          rfl
        · simp only [if_neg large, if_neg short, slice_eq (Nat.le_add_right _ _) (Nat.le_of_not_lt short), ofFrame_eq]
          cases Packet.ofFrame _ <;> rfl

/-- A loop whose turns follow a reader ends at the end of the body, or with a fault. -/
theorem loop_ends {item : Cursor α} {item' : Reader α} (h : Follows item item')
    (onward : ∀ {body pos x next}, pos < body.length → item body pos = .ok (x, next) → pos < next)
    (shorter : ∀ {body x rest}, item' body = .ok (x, rest) → rest.length < body.length)
    {body : Bytes} {pos : Nat} (found : Array α) (within : pos ≤ body.length) :
    (∃ l, loop item onward found body pos = .ok (l, body.length)) ∨
      ∃ e, loop item onward found body pos = .error (.fault e) := by
  rw [loop_many onward shorter h found within]
  cases Field.many item' shorter found (body.drop pos) with
  | error e => exact .inr ⟨e, rfl⟩
  | ok l => exact .inl ⟨l.toArray, rfl⟩

/-- **No place outside a packet is looked at.** Whatever a buffer holds and whatever limit there is, the decoder by
position comes to an answer, and so never looks at a byte or takes a piece that is not there: not in the buffer, not
in the body, not at any position that the fields of the body lead to. The answer is that of `decode`. In the loops
over filters and subscriptions every turn brings the position at least three bytes further, and not beyond the end
of the body; so they end there, or with a fault of the packet. -/
theorem decode_inRange :
    (∀ limit buffer, decode limit buffer = .ok (Wire.decode limit buffer)) ∧
    ∀ body pos, pos ≤ body.length →
      (∀ s next, filter body pos = .ok (s, next) → pos + 3 ≤ next ∧ next ≤ body.length) ∧
      (∀ s next, subscription body pos = .ok (s, next) → pos + 3 ≤ next ∧ next ≤ body.length) ∧
      (∀ found, (∃ l, loop filter filter_onward found body pos = .ok (l, body.length)) ∨
        ∃ e, loop filter filter_onward found body pos = .error (.fault e)) ∧
      ∀ found, (∃ l, loop subscription subscription_onward found body pos = .ok (l, body.length)) ∨
        ∃ e, loop subscription subscription_onward found body pos = .error (.fault e) := by
  refine ⟨decode_eq, fun body pos within => ⟨?_, ?_, ?_, ?_⟩⟩
  · exact (turn_within within).1
  · exact (turn_within within).2
  · intro found
    exact loop_ends follows_filter filter_onward readFilter_less found within
  · intro found
    exact loop_ends follows_subscription subscription_onward readSubscription_less found within

/-- A SUBSCRIBE whose second filter claims more bytes than there are. -/
def overlong : Bytes := [0x82, 0x0A, 0x00, 0x01, 0x00, 0x01, 0x61, 0x01, 0x00, 0xFF, 0x62, 0x00]

theorem overlong_inRange :
    decode 100 overlong = .ok (.fault .insufficientData) ∧
    2 ≤ (overlong.drop 2).length ∧ subscription (overlong.drop 2) 2 = .ok (⟨"a", .atLeastOnce⟩, 6) ∧
    2 + 3 ≤ 6 ∧ 6 ≤ (overlong.drop 2).length := by
  have within : 2 ≤ (overlong.drop 2).length := by decide
  have turn : subscription (overlong.drop 2) 2 = .ok (⟨"a", .atLeastOnce⟩, 6) := rfl
  have answer : Wire.decode 100 overlong = .fault .insufficientData := by decide +kernel
  have bounds := (decode_inRange.2 (overlong.drop 2) 2 within).2.1 _ _ turn
  exact ⟨answer ▸ decode_inRange.1 100 overlong, within, turn, bounds⟩

end MqttLink.Wire.Cursor
