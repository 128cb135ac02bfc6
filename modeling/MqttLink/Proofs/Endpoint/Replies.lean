import MqttLink.Proofs.Endpoint.Manual
import MqttLink.Proofs.Endpoint.Phases
/-!
# What an endpoint replies on its own

With `autoAck` on, each packet of an accepted client has the reply that the protocol asks for, or none. As long
as the application leaves acknowledgments alone, the replies that are sent are those to the packets that have
been dealt with, one for one and in order; and these are dealt with in the order in which they come, also those
that have been held back.
-/

namespace MqttLink

/-- The reply to a message, by its level. -/
def Publish.reply? (m : Publish) : Option Packet :=
  match m.qos with
  | .atMostOnce => none
  | .atLeastOnce => m.packetId.map .puback
  | .exactlyOnce => m.packetId.map .pubrec

namespace Packet

/-- Whether this is one of the packets that answer a packet. -/
def isReply : Packet → Bool
  | pingresp => true
  | p => p.isAck

/-- The reply to a packet that fits. -/
def reply? : Packet → Option Packet
  | publish m => m.reply?
  | pubrec id => some (pubrel id)
  | pubrel id => some (pubcomp id)
  | pingreq => some pingresp
  | connect _ | connack _ _ | puback _ | pubcomp _ | subscribe _ _ | suback _ _ | unsubscribe _ _ | unsuback _
  | pingresp | disconnect => none

end Packet

/-- The packet that comes in, if it is one. -/
def Input.packet? : Input → Option Packet
  | packet p => some p
  | _ => none

/-- The packets that come in, in order. -/
def received (inputs : List (Instant × Input)) : List Packet := inputs.filterMap (·.2.packet?)

namespace Endpoint

open Reaction

/-- The packet of an accepted client that is dealt with here, if it does not end the connection. -/
def Moment.dispatched (m : Moment) : Option Packet :=
  match m.deed with
  | .input (.packet p) => if m.before.session.phase = .connected ∧ m.after.isClosed = false then some p else none
  | _ => none

theorem dispatched_iff {m : Moment} {p : Packet} :
    m.dispatched = some p ↔
      m.deed = .input (.packet p) ∧ m.before.session.phase = .connected ∧ m.after.isClosed = false := by
  unfold Moment.dispatched
  split
  · rename_i p' deed
    rw [deed, Option.ite_none_right_eq_some]
    constructor
    · rintro ⟨accepted, ⟨⟩⟩
      exact ⟨rfl, accepted⟩
    · rintro ⟨⟨⟩, accepted⟩
      exact ⟨accepted, rfl⟩
  · rename_i other
    constructor
    · rintro ⟨⟩
    · rintro ⟨deed, -⟩
      exact absurd deed (other p)

theorem dispatched_apart {m : Moment} (apart : m.before.session.phase ≠ .connected) : m.dispatched = none := by
  rw [Option.eq_none_iff_forall_ne_some]
  intro p found
  exact apart (dispatched_iff.1 found).2.1

theorem dispatched_last {m : Moment} (gone : m.after.isClosed = true) : m.dispatched = none := by
  rw [Option.eq_none_iff_forall_ne_some]
  intro p found
  cases gone.symm.trans (dispatched_iff.1 found).2.2

/-- The packets of the accepted client that have been dealt with. -/
def dispatches (past : List Moment) : List Packet := past.filterMap Moment.dispatched

theorem dispatches_cons (m : Moment) (later : List Moment) :
    dispatches (m :: later) = m.dispatched.toList ++ dispatches later := by
  rw [dispatches, List.filterMap_cons]
  cases m.dispatched <;> rfl

theorem dispatches_single (m : Moment) : dispatches [m] = m.dispatched.toList := by
  rw [dispatches_cons]
  exact List.append_nil _

theorem dispatches_append (past later : List Moment) :
    dispatches (past ++ later) = dispatches past ++ dispatches later :=
  List.filterMap_append

/-! ## One move -/

/-- What an accepted client sends has its reply. -/
theorem served_replies {now : Instant} {e : Endpoint} {p : Packet} {r : Reaction}
    (auto : e.policy.autoAck = true) (fits : Served (e.touched now) p r) :
    r.packets.toList.filter Packet.isReply = p.reply?.toList := by
  have own (ack : Packet) : (e.touched now).reply ack = #[ack] := by simp [reply, touched, auto]
  cases fits with
  | levelZero level => simp [Packet.reply?, Publish.reply?, level]
  | levelOne level named | levelTwo level named =>
    simp [own, Packet.reply?, Publish.reply?, level, named, Packet.isReply, Packet.isAck]
  | again level named => simp [Packet.reply?, Publish.reply?, level, named, Packet.isReply, Packet.isAck]
  | pubrec | pubrel => simp [own, Packet.reply?, Packet.isReply, Packet.isAck]
  | puback | pubcomp | subscribe | unsubscribe | pingreq => rfl

/-- The requests that leave acknowledgments alone send no reply. -/
theorem granted_replies {e : Endpoint} {a : Action} {id : Option PacketId} {r : Reaction}
    (handsOff : a.acknowledges = false) (fits : Granted e a id r) :
    r.packets.toList.filter Packet.isReply = [] := by
  cases fits with
  | publish | subscribeAcknowledge | unsubscribeAcknowledge => rfl
  | retransmit | publishAcknowledge | publishReceived | publishRelease | publishComplete => cases handsOff

theorem move_replies {now : Instant} {e : Endpoint} {d : Deed} {answer : Option Answer} {r : Reaction}
    (auto : e.policy.autoAck = true) (handsOff : d.handsOff = true) (move : Move now e d answer r) :
    r.packets.toList.filter Packet.isReply =
      (Moment.dispatched ⟨now, e, d, answer, r⟩).toList.filterMap Packet.reply? := by
  cases move with
  | @served p r phase fits =>
    rw [dispatched_iff.2 ⟨rfl, phase, ?_⟩, served_replies auto fits]
    · cases reply : p.reply? <;> simp [reply]
    · exact isClosed_connected (fits.same_stage.1.trans phase)
  | granted phase fits => exact granted_replies (by simpa [Deed.handsOff] using handsOff) fits
  | welcomed | idle | denied => rfl
  | ignored gone =>
    rw [dispatched_last]
    · rfl
    · exact gone
  | asked phase | deferred phase =>
    rw [dispatched_apart (m := ⟨now, e, _, _, _⟩) (by simp [phase])]
    rfl
  | refused | ended =>
    rw [dispatched_last]
    · rfl
    · exact isClosed_ended _

/-! ## The order in which packets are dealt with -/

/-- The packets that wait for the decision about CONNECT. -/
def heldBack (e : Endpoint) : List Packet :=
  match e.handshake with
  | .deciding _ deferred => deferred.toList
  | _ => []

theorem heldBack_decided {e : Endpoint} (h : Standing e) (late : e.session.phase ≠ .awaitingConnect) :
    e.heldBack = [] := by
  rw [heldBack, h.decided late]

theorem dispatched_packet (now : Instant) (e : Endpoint) (p : Packet) (answer : Option Answer) (r : Reaction) :
    (Moment.dispatched ⟨now, e, .input (.packet p), answer, r⟩).toList.Sublist [p] := by
  cases found : Moment.dispatched ⟨now, e, .input (.packet p), answer, r⟩ with
  | none => exact List.nil_sublist _
  | some p' =>
    cases (dispatched_iff.1 found).1
    exact List.Sublist.refl _

/-- Packets that are dealt with one after the other are dealt with in that order. -/
theorem dispatches_play (now : Instant) (ps : List Packet) (e : Endpoint) :
    (dispatches (play now e (ps.map fun p => .input (.packet p)))).Sublist ps := by
  induction ps generalizing e with
  | nil => exact List.Sublist.refl _
  | cons p ps ih =>
    rw [List.map_cons, play, dispatches_cons]
    exact (dispatched_packet now e p _ _).append (ih _)

/-- A packet that comes is at most added to those that are held back. -/
theorem Move.heldBack {now : Instant} {e : Endpoint} {input : Input} {answer : Option Answer} {r : Reaction}
    (move : Move now e (.input input) answer r) :
    r.endpoint.heldBack.Sublist (e.heldBack ++ input.packet?.toList) := by
  have same {e' : Endpoint} (handshake : e'.handshake = e.handshake) :
      e'.heldBack.Sublist (e.heldBack ++ input.packet?.toList) := by
    rw [Endpoint.heldBack, handshake]
    exact List.sublist_append_left _ _
  cases move with
  | ignored | idle | denied => exact same rfl
  | served _ fits => exact same fits.same_stage.2
  | granted _ fits => exact same fits.same_stage.2.1
  | deferred _ asked =>
    simp only [Endpoint.heldBack, asked, Array.toList_push]
    exact List.Sublist.refl _
  | asked | refused | ended => exact List.nil_sublist _

/-- Nothing is held back once a packet of the accepted client is dealt with. -/
theorem move_order {now : Instant} {e : Endpoint} {input : Input} {answer : Option Answer} {r : Reaction}
    (standing : Standing e) (move : Move now e (.input input) answer r) :
    ((Moment.dispatched ⟨now, e, .input input, answer, r⟩).toList ++ r.endpoint.heldBack).Sublist
      (e.heldBack ++ input.packet?.toList) := by
  cases found : Moment.dispatched ⟨now, e, .input input, answer, r⟩ with
  | none => exact move.heldBack
  | some p =>
    obtain ⟨deed, phase, -⟩ := dispatched_iff.1 found
    cases deed
    have late : r.endpoint.session.phase ≠ .awaitingConnect :=
      Phase.late_of_rank_le move.rank_le (by simp [show e.session.phase = .connected from phase])
    rw [heldBack_decided (standing_next standing move) late, List.append_nil]
    exact List.sublist_append_right _ _

/-- Those that have been held back are dealt with in an accept that goes through, in their order, and then none
is held back any more. -/
theorem accept_order {x : Entry} {present : Bool} (standing : Standing x.before)
    (accepts : x.input = .action (.accept present)) (able : x.before.canAccept = true) :
    (dispatches x.moments).Sublist x.before.heldBack ∧ x.reaction.endpoint.heldBack = [] := by
  obtain ⟨due, deferred, asked, hd⟩ := deeds_accept present able
  have welcome := standing_next standing (perform_move x.time (d := .welcome present) able)
  generalize hw : perform x.time (.welcome present) x.before = welcomed at welcome
  have phase : welcomed.2.endpoint.session.phase = .connected := by rw [← hw]; rfl
  have rest := course_packets x.time deferred.toList
    (Course.start : Course welcomed.2.endpoint [] welcomed.2.endpoint)
  constructor
  · rw [Entry.moments, accepts, hd, play, hw, dispatches_cons, heldBack, asked]
    exact dispatches_play x.time deferred.toList welcomed.2.endpoint
  · rw [Entry.reaction, accepts, step_performAll, hd, performAll_cons, hw]
    exact heldBack_decided (rest.standing welcome) (Phase.late_of_rank_le (course_rank rest) (by simp [phase]))

theorem entry_order (x : Entry) (standing : Standing x.before) :
    (dispatches x.moments ++ x.reaction.endpoint.heldBack).Sublist
      (x.before.heldBack ++ x.input.packet?.toList) := by
  rcases possible_or_accept x.before x.input with single | ⟨present, accepts, able⟩
  · rw [moments_single single, dispatches_single]
    exact move_order standing (perform_move x.time single)
  · obtain ⟨replayed, none⟩ := accept_order standing accepts able
    rw [none, List.append_nil]
    exact replayed.trans (List.sublist_append_left _ _)

/-- **Packets are dealt with in the order in which they come.** -/
theorem moments_order {e : Endpoint} (standing : Standing e) (inputs : List (Instant × Input)) :
    (dispatches (e.moments inputs) ++ (e.run inputs).endpoint.heldBack).Sublist (e.heldBack ++ received inputs) := by
  induction inputs generalizing e with
  | nil =>
    rw [show received [] = [] from rfl, List.append_nil]
    exact List.Sublist.refl _
  | cons input rest ih =>
    obtain ⟨now, input⟩ := input
    have first := entry_order ⟨now, input, e⟩ standing
    have later := ih ((course_entry ⟨now, input, e⟩ .start).standing standing)
    have moments : e.moments ((now, input) :: rest) =
        Entry.moments ⟨now, input, e⟩ ++ (e.step now input).2.endpoint.moments rest := rfl
    have comes : received ((now, input) :: rest) = input.packet?.toList ++ received rest := by
      cases input <;> rfl
    -- what the first input leaves held back comes before all that follows
    have joined := (List.Sublist.refl (dispatches (Entry.moments ⟨now, input, e⟩))).append later
    have fitted := first.append (List.Sublist.refl (received rest))
    rw [moments, dispatches_append, endpoint_run_cons, comes]
    simp only [List.append_assoc] at joined fitted ⊢
    exact joined.trans fitted

/-! ## Whole runs -/

theorem course_replies {policy : Policy} {opened : Instant} {past : List Moment} {e : Endpoint}
    (auto : policy.autoAck = true) (handsOff : ∀ m ∈ past, m.deed.handsOff = true)
    (h : Course (start policy opened) past e) :
    (said past).filter Packet.isReply = (dispatches past).filterMap Packet.reply? := by
  induction h with
  | start => rfl
  | @next past e now d answer r before move ih =>
    have first := ih fun m hm => handsOff m (List.mem_append_left _ hm)
    have last := move_replies (by rw [course_policy before]; exact auto)
      (handsOff _ (List.mem_append_right _ List.mem_cons_self)) move
    rw [said_snoc, List.filter_append, first, Moment.packets, last, dispatches_append, dispatches_single,
      List.filterMap_append]

/-- **Replies are one for one and in order.** With `autoAck` on, as long as the application makes no request
that may send one of the four acknowledgments: the acknowledgments and PINGRESPs that are sent are the replies
to the packets of the accepted client that have been dealt with and have not ended the connection, and these
are dealt with in the order in which they come. -/
theorem run_replies {policy : Policy} (auto : policy.autoAck = true) (opened : Instant)
    {inputs : List (Instant × Input)}
    (handsOff : ∀ x ∈ inputs, ∀ a, x.2 = .action a → a.acknowledges = false) :
    let packets := ((start policy opened).run inputs).packets.toList
    let moments := (start policy opened).moments inputs
    packets.filter Packet.isReply = (dispatches moments).filterMap Packet.reply? ∧
    (dispatches moments).Sublist (received inputs) := by
  intro packets moments
  have course : Course (start policy opened) moments _ := course_moments (start policy opened) inputs
  constructor
  · rw [show packets = said moments from moments_packets _ _]
    exact course_replies auto (fun m hm => moments_handsOff handsOff hm) course
  · exact (List.sublist_append_left _ _).trans (moments_order (standing_start policy opened) inputs)

/-- A client that sends a message at level 1 before it is let in; then one at level 2, twice, and releases it.
In between it takes one at level 2 from the application, and asks for a sign of life. -/
def chatter : List (Instant × Input) :=
  [(0, .packet (.connect ⟨.v311, "c", true, 0, none, none, none⟩)),
    (1, .packet (.publish ⟨false, .atLeastOnce, false, "t", some 3, [1]⟩)),
    (2, .action (.accept false)),
    (3, .packet (.publish ⟨false, .exactlyOnce, false, "t", some 7, [2]⟩)),
    (4, .action (.publish "u" [3] .exactlyOnce false false)),
    (5, .packet (.publish ⟨true, .exactlyOnce, false, "t", some 7, [2]⟩)),
    (6, .packet (.pubrec 1)),
    (7, .packet .pingreq),
    (8, .packet (.pubrel 7)),
    (9, .packet (.pubcomp 1))]

theorem chatter_replies :
    (⟨none, none, true⟩ : Policy).autoAck = true ∧
    (∀ x ∈ chatter, ∀ a, x.2 = .action a → a.acknowledges = false) ∧
    ((start ⟨none, none, true⟩ 0).run chatter).packets.toList.filter Packet.isReply =
      [.puback 3, .pubrec 7, .pubrec 7, .pubrel 1, .pingresp, .pubcomp 7] := by
  have handsOff : ∀ x ∈ chatter, ∀ a, x.2 = .action a → a.acknowledges = false := by
    simp [chatter, Action.acknowledges]
  refine ⟨rfl, handsOff, ?_⟩
  rw [(run_replies rfl 0 handsOff).1]
  decide

end Endpoint
end MqttLink
