import MqttLink.Proofs.Endpoint.Incoming
/-!
# Acknowledgments that are left to the application

With `autoAck` off the application sends PUBACK, PUBREC, PUBREL and PUBCOMP itself, and an endpoint that
is not asked to should send none of them. It does send one: a level-2 message whose identifier is still
held is answered with PUBREC, as if the first delivery had been. `run_manual` says that this is the only
acknowledgment that goes out unasked, and that it goes out every time.
-/

namespace MqttLink

/-- Whether this is one of the four acknowledgments. -/
def Packet.isAck : Packet → Bool
  | puback _ | pubrec _ | pubrel _ | pubcomp _ => true
  | _ => false

/-- Whether a request may send an acknowledgment. -/
def Action.acknowledges : Action → Bool
  | publishAcknowledge _ | publishReceived _ | publishRelease _ | publishComplete _ | retransmit _ => true
  | _ => false

namespace Endpoint

open Reaction

/-- The identifier of a level-2 message that an accepted client sends while it is held. -/
def Moment.repeated (m : Moment) : Option PacketId :=
  match m.deed with
  | .input (.packet (.publish message)) =>
    if m.before.session.isConnected && message.qos == .exactlyOnce then
      message.packetId.filter fun id => id ≠ 0 && m.before.holds id
    else none
  | _ => none

theorem repeated_iff {m : Moment} {id : PacketId} :
    m.repeated = some id ↔ m.before.session.phase = .connected ∧ id ≠ 0 ∧ m.before.holds id = true ∧
      ∃ message, m.deed = .input (.packet (.publish message)) ∧ message.qos = .exactlyOnce ∧
        message.packetId = some id := by
  unfold Moment.repeated
  constructor
  · intro found
    split at found
    · rename_i message deed
      split at found
      · rename_i fits
        simp only [Session.isConnected, Bool.and_eq_true, beq_iff_eq] at fits
        obtain ⟨named, held⟩ := Option.filter_eq_some_iff.1 found
        simp only [Bool.and_eq_true, decide_eq_true_eq] at held
        exact ⟨fits.1, held.1, held.2, message, deed, fits.2, named⟩
      · cases found
    · cases found
  · rintro ⟨phase, valid, held, message, deed, level, named⟩
    simp [deed, Session.isConnected, phase, level, named, valid, held]

/-- Whether no request in it may send an acknowledgment. -/
def Deed.handsOff : Deed → Bool
  | .input (.action a) => !a.acknowledges
  | _ => true

/-! ## One move -/

theorem repeated_apart {m : Moment} (apart : m.before.session.phase ≠ .connected) : m.repeated = none := by
  rw [Option.eq_none_iff_forall_ne_some]
  intro id found
  exact apart (repeated_iff.1 found).1

/-- Nothing is told of a repeated message. -/
theorem repeated_silent {m : Moment} {id : PacketId} (found : m.repeated = some id)
    (move : Move m.time m.before m.deed m.answer m.reaction) : m.reaction.events.toList = [] := by
  obtain ⟨phase, valid, held, message, deed, level, named⟩ := repeated_iff.1 found
  rw [deed] at move
  rw [move.publish_two phase level named valid, if_pos held]

/-- What an accepted client sends is acknowledged without a request only if it is repeated. -/
theorem served_acks {now : Instant} {e : Endpoint} {p : Packet} {r : Reaction}
    (manual : e.policy.autoAck = false) (phase : e.session.phase = .connected)
    (fits : Served (e.touched now) p r) :
    r.packets.toList.filter Packet.isAck =
      (Moment.repeated ⟨now, e, .input (.packet p), none, r⟩).toList.map Packet.pubrec := by
  have quiet (ack : Packet) : (e.touched now).reply ack = #[] := by simp [reply, touched, manual]
  cases fits with
  | levelZero level | levelOne level => simp [Moment.repeated, level, quiet]
  | levelTwo level named valid unheld hf =>
    have unheld : e.holds _ = false := unheld
    simp [Moment.repeated, level, named, unheld, quiet]
  | @again message id level named valid held =>
    have found (r : Reaction) :
        Moment.repeated ⟨now, e, .input (.packet (.publish message)), none, r⟩ = some id :=
      repeated_iff.2 ⟨phase, valid, held, message, rfl, level, named⟩
    rw [found]
    rfl
  | pubrec | pubrel => simp [Moment.repeated, quiet]
  | puback | pubcomp | subscribe | unsubscribe | pingreq => rfl

/-- The other requests send no acknowledgment. -/
theorem granted_acks {e : Endpoint} {a : Action} {id : Option PacketId} {r : Reaction}
    (handsOff : a.acknowledges = false) (fits : Granted e a id r) :
    r.packets.toList.filter Packet.isAck = [] := by
  cases fits with
  | publish | subscribeAcknowledge | unsubscribeAcknowledge => rfl
  | retransmit | publishAcknowledge | publishReceived | publishRelease | publishComplete => cases handsOff

theorem move_acks {now : Instant} {e : Endpoint} {d : Deed} {answer : Option Answer} {r : Reaction}
    (manual : e.policy.autoAck = false) (handsOff : d.handsOff = true) (move : Move now e d answer r) :
    r.packets.toList.filter Packet.isAck =
      (Moment.repeated ⟨now, e, d, answer, r⟩).toList.map Packet.pubrec := by
  have whole := move
  cases move with
  | served phase fits => exact served_acks manual phase fits
  | granted phase fits => exact granted_acks (by simpa [Deed.handsOff] using handsOff) fits
  | welcomed | idle | denied => rfl
  | ignored gone =>
    rw [repeated_apart (m := ⟨now, e, _, _, _⟩) fun phase => ?_]
    · rfl
    · rw [isClosed_connected phase] at gone
      cases gone
  | asked => rfl
  | deferred phase _ =>
    rw [repeated_apart (m := ⟨now, e, _, _, _⟩) (by rw [phase]; nofun)]
    rfl
  | refused _ refuses => cases refuses <;> rfl
  | ended _ ends =>
    cases found : Moment.repeated ⟨now, e, _, none, _⟩ with
    | none => rfl
    | some id => cases repeated_silent found whole

/-! ## Whole runs -/

theorem course_acks {policy : Policy} {opened : Instant} {past : List Moment} {e : Endpoint}
    (manual : policy.autoAck = false) (handsOff : ∀ m ∈ past, m.deed.handsOff = true)
    (h : Course (start policy opened) past e) :
    (said past).filter Packet.isAck = (past.filterMap Moment.repeated).map Packet.pubrec := by
  induction h with
  | start => rfl
  | @next past e now d answer r before move ih =>
    have first := ih fun m hm => handsOff m (List.mem_append_left _ hm)
    have last := move_acks (by rw [course_policy before]; exact manual)
      (handsOff _ (List.mem_append_right _ List.mem_cons_self)) move
    rw [said_snoc, List.filter_append, first, filterMap_snoc, List.map_append, ← last]
    rfl

/-- The deeds that an input comes down to ask for no more than the input. -/
theorem deeds_handsOff {e : Endpoint} {input : Input} {d : Deed}
    (handsOff : ∀ a, input = .action a → a.acknowledges = false) (hd : d ∈ e.deeds input) :
    d.handsOff = true := by
  rcases possible_or_accept e input with single | ⟨present, rfl, able⟩
  · rw [deeds_single single, List.mem_singleton] at hd
    subst hd
    cases input with
    | action a => simp [Deed.handsOff, handsOff a rfl]
    | _ => rfl
  · obtain ⟨due, deferred, -, same⟩ := deeds_accept present able
    rw [same] at hd
    rcases List.mem_cons.1 hd with rfl | hd
    · rfl
    · obtain ⟨p, -, rfl⟩ := List.mem_map.1 hd
      rfl

theorem moments_handsOff {e : Endpoint} {inputs : List (Instant × Input)} {m : Moment}
    (handsOff : ∀ x ∈ inputs, ∀ a, x.2 = .action a → a.acknowledges = false) (hm : m ∈ e.moments inputs) :
    m.deed.handsOff = true := by
  obtain ⟨x, hx, hm⟩ := List.mem_flatMap.1 hm
  have among : (x.time, x.input) ∈ inputs := by
    rw [← log_inputs e inputs]
    exact List.mem_map_of_mem hx
  exact deeds_handsOff (handsOff _ among) (play_mem hm).2

/-- **The only acknowledgment that is sent unasked answers a repeated message.** With `autoAck` off, as
long as the application makes no request that may send one of the four acknowledgments: those that are
sent are one PUBREC for each level-2 message that comes while its identifier is held, in order, and so
none is sent if and only if no such message comes. It is one that comes while the last thing the
application has heard under its identifier is that a message was delivered. -/
theorem run_manual {policy : Policy} (manual : policy.autoAck = false) (opened : Instant)
    {inputs : List (Instant × Input)}
    (handsOff : ∀ x ∈ inputs, ∀ a, x.2 = .action a → a.acknowledges = false) :
    let packets := ((start policy opened).run inputs).packets.toList
    let moments := (start policy opened).moments inputs
    packets.filter Packet.isAck = (moments.filterMap Moment.repeated).map Packet.pubrec ∧
    ((∀ p ∈ packets, p.isAck = false) ↔ ∀ m ∈ moments, m.repeated = none) ∧
    ∀ earlier m later, moments = earlier ++ m :: later → ∀ id,
      m.repeated = some id ↔
        m.before.session.phase = .connected ∧ id ≠ 0 ∧
        (handovers id (told earlier)).getLast? = some .delivered ∧
        ∃ message, m.deed = .input (.packet (.publish message)) ∧ message.qos = .exactlyOnce ∧
          message.packetId = some id := by
  intro packets moments
  have course : Course (start policy opened) moments _ := course_moments (start policy opened) inputs
  have acks : packets.filter Packet.isAck = (moments.filterMap Moment.repeated).map Packet.pubrec := by
    rw [← course_acks manual (fun m hm => moments_handsOff handsOff hm) course]
    exact congrArg _ (moments_packets _ _)
  refine ⟨acks, ?_, fun earlier m later split id => ?_⟩
  · have none_iff : packets.filter Packet.isAck = [] ↔ moments.filterMap Moment.repeated = [] := by
      rw [acks, List.map_eq_nil_iff]
    simpa [List.filter_eq_nil_iff, List.filterMap_eq_nil_iff] using none_iff
  · rw [split] at course
    obtain ⟨before, move⟩ := course_split course
    obtain ⟨n, held, ledger⟩ := course_ledger id before
    rw [repeated_iff, ledger.heard, getLast?_pending]
    refine and_congr_right fun phase => ?_
    rw [ledger.holds (isClosed_connected phase)]

/-- An endpoint that leaves acknowledgments to the application. -/
def byHand : Policy := ⟨none, none, false⟩

/-- A client sends a message at level 2 and releases it, and then one at level 1; the application lets it in,
and publishes at level 1. -/
def unanswered : List (Instant × Input) :=
  [(0, .packet (.connect ⟨.v311, "c", true, 0, none, none, none⟩)),
    (1, .action (.accept false)),
    (2, .packet (.publish ⟨false, .exactlyOnce, false, "t", some 7, [1]⟩)),
    (3, .packet (.pubrel 7)),
    (4, .packet (.publish ⟨false, .atLeastOnce, false, "t", some 7, [2]⟩)),
    (5, .action (.publish "u" [3] .atLeastOnce false false))]

theorem unanswered_manual :
    byHand.autoAck = false ∧ (∀ x ∈ unanswered, ∀ a, x.2 = .action a → a.acknowledges = false) ∧
      ∀ p ∈ ((start byHand 0).run unanswered).packets.toList, p.isAck = false := by
  have handsOff : ∀ x ∈ unanswered, ∀ a, x.2 = .action a → a.acknowledges = false := by
    simp [unanswered, Action.acknowledges]
  have unrepeated : ∀ m ∈ (start byHand 0).moments unanswered, m.repeated = none := by decide
  exact ⟨rfl, handsOff, (run_manual rfl 0 handsOff).2.1.2 unrepeated⟩

/-- The client sends a message at level 2 again before anything has come of the first. -/
def impatience : List (Instant × Input) :=
  [(0, .packet (.connect ⟨.v311, "c", true, 0, none, none, none⟩)),
    (1, .action (.accept false)),
    (2, .packet (.publish ⟨false, .exactlyOnce, false, "t", some 7, [1]⟩)),
    (3, .packet (.publish ⟨true, .exactlyOnce, false, "t", some 7, [1]⟩))]

/-- **A repeated message is acknowledged unasked.** -/
theorem impatience_acknowledged :
    byHand.autoAck = false ∧ (∀ x ∈ impatience, ∀ a, x.2 = .action a → a.acknowledges = false) ∧
      ((start byHand 0).run impatience).packets.toList = [.connack false .accepted, .pubrec 7] :=
  ⟨rfl, by simp [impatience, Action.acknowledges], by decide⟩

end Endpoint
end MqttLink
