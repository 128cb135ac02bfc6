import MqttLink.Proofs.Endpoint.Manual
import MqttLink.Proofs.Endpoint.Outgoing
/-!
# What an acknowledgment answers

Each of the four acknowledgments goes out on an `Occasion`. PUBREC and PUBREL are sent in the middle of an
exchange, and only while there is one at that stage (`run_handshakes`). PUBACK and PUBCOMP end an exchange,
of which no record is left. An endpoint sends them on its own account for what the client has just sent;
but it also sends them whenever the application asks for them, and takes its word that there was such an
exchange (`run_endings`).
-/

namespace MqttLink

/-- The request for an acknowledgment that ends an exchange. -/
def Packet.endingRequest : Packet → Option Action
  | puback id => some (.publishAcknowledge id)
  | pubcomp id => some (.publishComplete id)
  | _ => none

/-- Which packet of the client is answered with an acknowledgment that ends an exchange. -/
inductive Finishes : Packet → Packet → Prop where
  | message {m : Publish} {id : PacketId} (level : m.qos = .atLeastOnce) (named : m.packetId = some id) :
    Finishes (.puback id) (.publish m)
  | release (id : PacketId) : Finishes (.pubcomp id) (.pubrel id)

namespace Endpoint

open Reaction

/-- Whether a request for an acknowledgment that ends an exchange is granted. -/
def mayEnd (e : Endpoint) : Packet → Prop
  | .puback id => e.session.phase = .connected ∧ id ≠ 0
  | .pubcomp id => e.session.phase = .connected ∧ id ≠ 0 ∧ e.holds id = false
  | _ => False

/-- Why one of the four acknowledgments goes out. -/
inductive Occasion (m : Moment) : Packet → Prop where
  /-- The client has sent what it answers. -/
  | answer {ack p : Packet} (finishes : Finishes ack p) (accepted : m.accepts p = true) : Occasion m ack
  /-- The application has asked for it. -/
  | request {ack : Packet} {a : Action} (ending : ack.endingRequest = some a)
    (deed : m.deed = .input (.action a)) (able : m.before.mayEnd ack) : Occasion m ack
  /-- A message waits for its release. -/
  | held {id : PacketId} (opened : m.after.isClosed = false) (holds : m.after.holds id = true) :
    Occasion m (.pubrec id)
  /-- The client has a message that is not complete. -/
  | received {id : PacketId} (opened : m.after.isClosed = false)
    (live : m.after.session.exchanges.outgoing[id]? = some .received) : Occasion m (.pubrel id)

/-! ## One move -/

theorem mem_reply {e : Endpoint} {ack p : Packet} (sent : p ∈ (e.reply ack).toList) : p = ack := by
  unfold reply at sent
  split at sent
  · simpa using sent
  · simp at sent

theorem accepts_iff {m : Moment} {p : Packet} :
    m.accepts p = true ↔ m.deed = .input (.packet p) ∧ m.before.session.phase = .connected ∧
      m.events.any Event.isViolation = false := by
  simp [Moment.accepts, Moment.handles, Session.isConnected, and_assoc]

/-- A packet that is served is accepted. -/
theorem accepts_served {now : Instant} {e : Endpoint} {p : Packet} {r : Reaction}
    (phase : e.session.phase = .connected) (fits : Served (e.touched now) p r) :
    Moment.accepts ⟨now, e, .input (.packet p), none, r⟩ p = true := by
  have peaceful : r.events.toList.any Event.isViolation = false := by cases fits <;> rfl
  exact accepts_iff.2 ⟨rfl, phase, peaceful⟩

theorem served_occasion {now : Instant} {e : Endpoint} {p ack : Packet} {r : Reaction}
    (phase : e.session.phase = .connected) (fits : Served (e.touched now) p r) (isAck : ack.isAck = true)
    (sent : ack ∈ r.packets.toList) : Occasion ⟨now, e, .input (.packet p), none, r⟩ ack := by
  have accepted := accepts_served phase fits
  have opened : r.endpoint.isClosed = false := isClosed_connected (fits.same_stage.1.trans phase)
  cases fits with
  | levelZero | puback | pubcomp | subscribe | unsubscribe => cases sent
  | pingreq => cases List.mem_singleton.1 sent; cases isAck
  | levelOne level named valid =>
    cases mem_reply sent
    exact .answer (.message level named) accepted
  | levelTwo level named valid unheld hf =>
    cases mem_reply sent
    exact .held opened ((holds_insert hf _).2 (.inl rfl))
  | again level named valid held =>
    cases List.mem_singleton.1 sent
    exact .held opened held
  | pubrel fits =>
    cases mem_reply sent
    exact .answer (.release _) accepted
  | pubrec fits =>
    cases mem_reply sent
    obtain ⟨-, -, hf⟩ := InFlight.onPubrec_eq_ok.1 fits
    refine .received opened ?_
    subst hf
    exact (getElem?_insert_id ..).trans (if_pos rfl)

theorem granted_occasion {now : Instant} {e : Endpoint} {a : Action} {ack : Packet} {given : Option PacketId}
    {r : Reaction} (phase : e.session.phase = .connected) (fits : Granted e a given r)
    (isAck : ack.isAck = true) (sent : ack ∈ r.packets.toList) :
    Occasion ⟨now, e, .input (.action a), some (.ok given), r⟩ ack := by
  have opened : r.endpoint.isClosed = false := isClosed_connected (fits.same_stage.1.trans phase)
  cases fits with
  | publish | subscribeAcknowledge | unsubscribeAcknowledge => cases List.mem_singleton.1 sent; cases isAck
  | retransmit fits =>
    rcases InFlight.retransmit_eq_ok.1 fits with ⟨-, ⟨m, -, rfl, -⟩ | ⟨live, rfl, rfl⟩⟩
    · cases List.mem_singleton.1 sent; cases isAck
    · cases List.mem_singleton.1 sent; exact .received opened live
  | publishAcknowledge valid =>
    cases List.mem_singleton.1 sent
    exact .request rfl rfl ⟨phase, valid⟩
  | publishComplete valid unheld =>
    cases List.mem_singleton.1 sent
    exact .request rfl rfl ⟨phase, valid, unheld⟩
  | publishReceived valid held =>
    cases List.mem_singleton.1 sent
    exact .held opened held
  | publishRelease valid live =>
    cases List.mem_singleton.1 sent
    exact .received opened live

/-- **An acknowledgment goes out on an occasion.** -/
theorem move_occasion {now : Instant} {e : Endpoint} {d : Deed} {answer : Option Answer} {r : Reaction}
    {ack : Packet} (move : Move now e d answer r) (isAck : ack.isAck = true)
    (sent : ack ∈ r.packets.toList) : Occasion ⟨now, e, d, answer, r⟩ ack := by
  cases move with
  | served phase fits => exact served_occasion phase fits isAck sent
  | granted phase fits => exact granted_occasion phase fits isAck sent
  | ignored | asked | deferred | idle | denied | ended => cases sent
  | welcomed | refused => cases List.mem_singleton.1 sent; cases isAck

/-! ## In the middle of an exchange -/

/-- Something has happened, and nothing that ends it has happened since. -/
def Since (begins ends : Moment → Prop) (past : List Moment) : Prop :=
  ∃ earlier m later, past = earlier ++ m :: later ∧ begins m ∧ ∀ x ∈ later, ¬ ends x

/-- What holds of an open endpoint only after it has begun and as long as it has not ended. -/
theorem course_since (holds : Endpoint → Prop) {begins ends : Moment → Prop} {policy : Policy}
    {opened : Instant} {past : List Moment} {e : Endpoint} (never : ¬ holds (start policy opened))
    (next : ∀ {now e d answer r}, Move now e d answer r → r.endpoint.isClosed = false → holds r.endpoint →
      begins ⟨now, e, d, answer, r⟩ ∨ holds e ∧ ¬ ends ⟨now, e, d, answer, r⟩)
    (h : Course (start policy opened) past e) (isOpen : e.isClosed = false) (now : holds e) :
    Since begins ends past := by
  induction h with
  | start => exact absurd now never
  | @next past e time d answer r before move ih =>
    rcases next move isOpen now with first | ⟨still, unended⟩
    · exact ⟨past, _, [], rfl, first, List.forall_mem_nil _⟩
    · obtain ⟨earlier, m, later, rfl, first, since⟩ := ih (move.opened isOpen) still
      refine ⟨earlier, m, later ++ [⟨time, e, d, answer, r⟩], by simp, first, fun x hx => ?_⟩
      rcases List.mem_append.1 hx with hx | hx
      · exact since x hx
      · rw [List.mem_singleton.1 hx]; exact unended

/-- A level-2 message under an identifier is taken in. -/
def Moment.takes (id : PacketId) (m : Moment) : Prop :=
  ∃ message, m.accepts (.publish message) = true ∧ message.qos = .exactlyOnce ∧ message.packetId = some id

/-- An identifier is held from a message of level 2 until PUBREL. -/
theorem move_held {now : Instant} {e : Endpoint} {d : Deed} {answer : Option Answer} {r : Reaction}
    {id : PacketId} (move : Move now e d answer r) (opened : r.endpoint.isClosed = false)
    (held : r.endpoint.holds id = true) :
    Moment.takes id ⟨now, e, d, answer, r⟩ ∨
      e.holds id = true ∧ ¬ Moment.accepts ⟨now, e, d, answer, r⟩ (.pubrel id) = true := by
  cases move_handing id move with
  | @delivery message phase unheld deed level named told after =>
    exact .inl ⟨message, accepts_iff.2 ⟨deed, phase, by rw [told]; rfl⟩, level, named⟩
  | release _ _ _ _ after => rw [show r.endpoint.holds id = false from after] at held; cases held
  | apart _ unaccepted same =>
    exact .inr ⟨(same opened).symm.trans held, Bool.eq_false_iff.1 unaccepted⟩

/-- Whether a level-2 message under an identifier waits for PUBCOMP. -/
def Received (id : PacketId) (e : Endpoint) : Prop := e.session.exchanges.outgoing[id]? = some .received

theorem served_received {now : Instant} {e : Endpoint} {p : Packet} {r : Reaction} {id : PacketId}
    (fits : Served (e.touched now) p r) (live : Received id r.endpoint) :
    p = .pubrec id ∨ Received id e ∧ p ≠ .pubcomp id := by
  cases fits with
  | levelZero | levelOne | again | subscribe | unsubscribe | pingreq => exact .inr ⟨live, by simp⟩
  | levelTwo _ _ _ _ hf => subst hf; exact .inr ⟨live, by simp⟩
  | pubrel fits =>
    obtain ⟨-, -, rfl⟩ := InFlight.onPubrel_eq_ok.1 fits
    exact .inr ⟨live, by simp⟩
  | puback fits =>
    obtain ⟨-, -, rfl⟩ := InFlight.onPuback_eq_ok.1 fits
    exact .inr ⟨(Option.ite_none_left_eq_some.1 ((getElem?_erase_id ..).symm.trans live)).2, by simp⟩
  | pubcomp fits =>
    obtain ⟨-, -, rfl⟩ := InFlight.onPubcomp_eq_ok.1 fits
    obtain ⟨other, before⟩ := Option.ite_none_left_eq_some.1 ((getElem?_erase_id ..).symm.trans live)
    exact .inr ⟨before, fun same => other (Packet.pubcomp.inj same)⟩
  | @pubrec k f fits =>
    obtain ⟨-, -, rfl⟩ := InFlight.onPubrec_eq_ok.1 fits
    by_cases same : k = id
    · exact .inl (congrArg _ same)
    · exact .inr ⟨((getElem?_insert_id ..).trans (if_neg same)).symm.trans live, by simp⟩

/-- A message that is sent has not been received. -/
theorem received_of_insert_sent {t : Std.TreeMap PacketId Outgoing} {k id : PacketId} {m : Publish}
    (live : (t.insert k (.sent m))[id]? = some .received) : t[id]? = some .received := by
  rw [getElem?_insert_id] at live
  split at live
  · cases live
  · exact live

theorem granted_received {e : Endpoint} {a : Action} {given : Option PacketId} {r : Reaction} {id : PacketId}
    (fits : Granted e a given r) (live : Received id r.endpoint) : Received id e := by
  cases fits with
  | publish _ fits =>
    rcases InFlight.register_eq_ok.1 fits with ⟨-, -, rfl⟩ | ⟨-, k, -, -, rfl⟩
    · exact live
    · exact received_of_insert_sent live
  | retransmit fits =>
    rcases (InFlight.retransmit_eq_ok.1 fits).2 with ⟨m, -, -, rfl⟩ | ⟨-, -, rfl⟩
    · exact received_of_insert_sent live
    · exact live
  | _ => exact live

/-- A message waits for PUBCOMP from PUBREC until then. -/
theorem move_received {now : Instant} {e : Endpoint} {d : Deed} {answer : Option Answer} {r : Reaction}
    {id : PacketId} (move : Move now e d answer r) (opened : r.endpoint.isClosed = false)
    (live : Received id r.endpoint) :
    Moment.accepts ⟨now, e, d, answer, r⟩ (.pubrec id) = true ∨
      Received id e ∧ ¬ Moment.accepts ⟨now, e, d, answer, r⟩ (.pubcomp id) = true := by
  have other (deed : d ≠ .input (.packet (.pubcomp id))) :
      ¬ Moment.accepts ⟨now, e, d, answer, r⟩ (.pubcomp id) = true :=
    fun accepted => deed (accepts_iff.1 accepted).1
  have early (phase : e.session.phase ≠ .connected) :
      ¬ Moment.accepts ⟨now, e, d, answer, r⟩ (.pubcomp id) = true :=
    fun accepted => phase (accepts_iff.1 accepted).2.1
  cases move with
  | served phase fits =>
    rcases served_received fits live with rfl | ⟨before, different⟩
    · exact .inl (accepts_served phase fits)
    · exact .inr ⟨before, other (by simpa using different)⟩
  | granted phase fits => exact .inr ⟨granted_received fits live, other (by simp)⟩
  | welcomed | idle | denied | asked => exact .inr ⟨live, other (by simp)⟩
  | deferred phase asked => exact .inr ⟨live, early (by rw [phase]; nofun)⟩
  | ignored gone => cases gone.symm.trans opened
  | refused | ended => cases (isClosed_ended _).symm.trans opened

/-- **PUBREC and PUBREL belong to an exchange at the right stage.** Whatever happens to an endpoint, at the
moment at which PUBREC is sent under an identifier the client's message of level 2 is held under it: it
has been taken in, and has not been released since. At the moment at which PUBREL is sent, a message of
level 2 under the identifier waits for PUBCOMP: PUBREC has come, and not PUBCOMP since; and the last thing
that happened under the identifier before PUBREC is that it was given to a message of level 2. -/
theorem run_handshakes (policy : Policy) (opened : Instant) (inputs : List (Instant × Input)) :
    let moments := (start policy opened).moments inputs
    (∀ earlier m later, moments = earlier ++ m :: later → ∀ id, .pubrec id ∈ m.packets →
      m.after.session.exchanges.get? .inbound id = some ⟨id, .inbound, .exactlyOnce, .received, none⟩ ∧
      Since (Moment.takes id) (·.accepts (.pubrel id) = true) (earlier ++ [m])) ∧
    ∀ earlier m later, moments = earlier ++ m :: later → ∀ id, .pubrel id ∈ m.packets →
      m.after.session.exchanges.get? .outbound id = some ⟨id, .outbound, .exactlyOnce, .receivedAck, none⟩ ∧
      Since (·.accepts (.pubrec id) = true) (·.accepts (.pubcomp id) = true) (earlier ++ [m]) ∧
      [.sent .exactlyOnce, .received] <:+ progress id (earlier ++ [m]) := by
  intro moments
  have course : Course (start policy opened) moments _ := course_moments (start policy opened) inputs
  refine ⟨fun earlier m later split id sent => ?_, fun earlier m later split id sent => ?_⟩
  · rw [split] at course
    obtain ⟨before, move⟩ := course_split course
    cases move_occasion move rfl sent with
    | answer finishes _ => cases finishes
    | request ending _ _ => cases ending
    | held isOpen holds =>
      refine ⟨if_pos holds, ?_⟩
      refine course_since (·.holds id = true) ?_ move_held (before.next move) isOpen holds
      exact Bool.eq_false_iff.1 (InFlight.incoming_empty id)
  · rw [split] at course
    obtain ⟨before, move⟩ := course_split course
    cases move_occasion move rfl sent with
    | answer finishes _ => cases finishes
    | request ending _ _ => cases ending
    | received isOpen live =>
      obtain ⟨blocks, unfinished, diary⟩ := course_diary id (before.next move)
      have trail : unfinished = [.sent .exactlyOnce, .received] :=
        (diary.live isOpen).symm.trans (congrArg InFlight.remembered live)
      refine ⟨congrArg (Option.map _) live, ?_, blocks.flatten, by rw [← trail]; exact diary.written.symm⟩
      refine course_since (Received id) ?_ move_received (before.next move) isOpen live
      exact fun live => nomatch (InFlight.outgoing_empty id).symm.trans live

/-! ## At the end of an exchange -/

theorem connected_of_mayEnd {e : Endpoint} {ack : Packet} (able : e.mayEnd ack) :
    e.session.phase = .connected := by
  cases ack with
  | puback | pubcomp => exact able.1
  | _ => cases able

/-- The requests of which `mayEnd` speaks are granted. -/
theorem attempt_ending {e : Endpoint} {ack : Packet} {a : Action} (now : Instant)
    (ending : ack.endingRequest = some a) (able : e.mayEnd ack) :
    e.attempt now a = .ok (none, (still e).send ack) := by
  cases ack with
  | puback id =>
    cases ending
    have fits : e.requireExchange id = .ok () := requireExchange_eq_ok.2 able
    simp only [attempt, publishAcknowledge, fits]
    rfl
  | pubcomp id =>
    cases ending
    obtain ⟨phase, valid, unheld⟩ := able
    have fits : e.requireExchange id = .ok () := requireExchange_eq_ok.2 ⟨phase, valid⟩
    have unheld : e.session.exchanges.isIncoming id = false := unheld
    simp only [attempt, publishComplete, fits, unheld]
    rfl
  | _ => cases ending

/-- A request for an acknowledgment that ends an exchange is granted and the acknowledgment sent, or it is
turned down and nothing is sent. -/
theorem Move.ending {now : Instant} {e : Endpoint} {a : Action} {answer : Option Answer} {r : Reaction}
    {ack : Packet} (move : Move now e (.input (.action a)) answer r) (ending : ack.endingRequest = some a) :
    e.mayEnd ack ∧ answer = some (.ok none) ∧ r.packets.toList = [ack] ∨
      ¬ e.mayEnd ack ∧ (∃ error, answer = some (.error error)) ∧ r.packets.toList = [] := by
  cases move with
  | ignored gone =>
    refine .inr ⟨fun able => ?_, ⟨_, rfl⟩, rfl⟩
    cases (isClosed_connected (connected_of_mayEnd able)).symm.trans gone
  | denied opened fails =>
    refine .inr ⟨fun able => ?_, ⟨_, rfl⟩, rfl⟩
    cases (attempt_ending now ending able).symm.trans fails
  | granted phase fits =>
    cases ack with
    | puback id =>
      cases ending
      cases fits with
      | publishAcknowledge valid => exact .inl ⟨⟨phase, valid⟩, rfl, rfl⟩
    | pubcomp id =>
      cases ending
      cases fits with
      | publishComplete valid unheld => exact .inl ⟨⟨phase, valid, unheld⟩, rfl, rfl⟩
    | _ => cases ending
  | refused _ refuses =>
    cases refuses
    cases ack <;> cases ending
  | ended _ ends => cases ends

/-- The client has sent what an acknowledgment answers. -/
def Due (ack : Packet) (past : List Moment) : Prop := ∃ m ∈ past, ∃ p, Finishes ack p ∧ m.accepts p = true

theorem Due.later {ack : Packet} {past : List Moment} (h : Due ack past) (more : List Moment) :
    Due ack (past ++ more) := by
  obtain ⟨m, hm, fits⟩ := h
  exact ⟨m, List.mem_append_left _ hm, fits⟩

/-- The acknowledgments that end an exchange are sent only where they are due, and a request for one that
is not is turned down. -/
structure DueOnly (moments : List Moment) : Prop where
  sent : ∀ earlier m later, moments = earlier ++ m :: later → ∀ ack a, ack.endingRequest = some a →
    ack ∈ m.packets → Due ack (earlier ++ [m])
  asked : ∀ earlier m later, moments = earlier ++ m :: later → ∀ ack a, ack.endingRequest = some a →
    m.deed = .input (.action a) → ¬ Due ack earlier →
    (∃ error, m.answer = some (.error error)) ∧ m.packets = []

theorem isAck_of_ending {ack : Packet} {a : Action} (ending : ack.endingRequest = some a) :
    ack.isAck = true := by
  cases ack with
  | puback | pubcomp => rfl
  | _ => cases ending

/-- An acknowledgment that ends an exchange is sent in answer to the client, or on request. -/
theorem move_endings {now : Instant} {e : Endpoint} {d : Deed} {answer : Option Answer} {r : Reaction}
    {ack : Packet} {a : Action} (move : Move now e d answer r) (ending : ack.endingRequest = some a)
    (sent : ack ∈ r.packets.toList) :
    (∃ p, Finishes ack p ∧ Moment.accepts ⟨now, e, d, answer, r⟩ p = true) ∨
      d = .input (.action a) ∧ e.mayEnd ack := by
  cases move_occasion move (isAck_of_ending ending) sent with
  | answer finishes accepted => exact .inl ⟨_, finishes, accepted⟩
  | request ending' deed able =>
    cases ending.symm.trans ending'
    exact .inr ⟨deed, able⟩
  | held | received => cases ending

/-- **The end of an exchange is acknowledged on the application's word.** PUBACK and PUBCOMP are sent when the
client sends what they answer, or when the application asks for them. A request for PUBACK is granted
whenever the client is let in and the identifier is not zero, and one for PUBCOMP also needs that no message
of level 2 waits for PUBREL under the identifier. So these acknowledgments are sent only where they are due,
and other requests for them are turned down, if and only if the application never asks an accepted client's
endpoint for one that is not due. -/
theorem run_endings (policy : Policy) (opened : Instant) (inputs : List (Instant × Input)) :
    let moments := (start policy opened).moments inputs
    (∀ m ∈ moments, ∀ ack a, ack.endingRequest = some a → ack ∈ m.packets →
      (∃ p, Finishes ack p ∧ m.accepts p = true) ∨ m.deed = .input (.action a) ∧ m.before.mayEnd ack) ∧
    (∀ m ∈ moments, ∀ ack a, ack.endingRequest = some a → m.deed = .input (.action a) →
      m.before.mayEnd ack ∧ m.answer = some (.ok none) ∧ m.packets = [ack] ∨
      ¬ m.before.mayEnd ack ∧ (∃ error, m.answer = some (.error error)) ∧ m.packets = []) ∧
    (DueOnly moments ↔
      ∀ earlier m later, moments = earlier ++ m :: later → ∀ ack a, ack.endingRequest = some a →
        m.deed = .input (.action a) → m.before.mayEnd ack → Due ack earlier) := by
  intro moments
  have course : Course (start policy opened) moments _ := course_moments (start policy opened) inputs
  have moved {m : Moment} (hm : m ∈ moments) : Move m.time m.before m.deed m.answer m.reaction := by
    obtain ⟨earlier, later, split⟩ := List.append_of_mem hm
    rw [split] at course
    exact (course_split course).2
  have among {earlier later : List Moment} {m : Moment} (split : moments = earlier ++ m :: later) :
      m ∈ moments := by simp [split]
  have endings {m : Moment} (hm : m ∈ moments) {ack : Packet} {a : Action}
      (ending : ack.endingRequest = some a) (deed : m.deed = .input (.action a)) := by
    have move := moved hm
    rw [deed] at move
    exact move.ending ending
  refine ⟨fun m hm ack a ending sent => move_endings (moved hm) ending sent,
    fun m hm ack a ending deed => endings hm ending deed, ?_, ?_⟩
  · intro only earlier m later split ack a ending deed able
    refine Classical.byContradiction fun undue => ?_
    obtain ⟨⟨error, turned⟩, -⟩ := only.asked earlier m later split ack a ending deed undue
    rcases endings (among split) ending deed with ⟨-, granted, -⟩ | ⟨unable, -⟩
    · cases granted.symm.trans turned
    · exact unable able
  · intro honest
    refine ⟨fun earlier m later split ack a ending sent => ?_,
      fun earlier m later split ack a ending deed undue => ?_⟩
    · rcases move_endings (moved (among split)) ending sent with ⟨p, finishes, accepted⟩ | ⟨deed, able⟩
      · exact ⟨m, List.mem_append_right _ List.mem_cons_self, p, finishes, accepted⟩
      · exact (honest earlier m later split ack a ending deed able).later [m]
    · rcases endings (among split) ending deed with ⟨able, -⟩ | ⟨-, turned⟩
      · exact absurd (honest earlier m later split ack a ending deed able) undue
      · exact turned

/-- A client that sends nothing after CONNECT, and an application that acknowledges all the same. -/
def unprompted : List (Instant × Input) :=
  [(0, .packet (.connect ⟨.v311, "c", true, 0, none, none, none⟩)),
    (1, .action (.accept false)),
    (2, .action (.publishAcknowledge 5)),
    (3, .action (.publishComplete 5))]

/-- **An exchange that never was is acknowledged.** -/
theorem unprompted_acknowledged :
    ((start ⟨none, none, true⟩ 0).run unprompted).packets.toList =
        [.connack false .accepted, .puback 5, .pubcomp 5] ∧
      ¬ DueOnly ((start ⟨none, none, true⟩ 0).moments unprompted) := by
  refine ⟨by decide, fun only => ?_⟩
  have due := only.sent [⟨0, _, .input (.packet (.connect _)), _, _⟩, ⟨1, _, .welcome false, _, _⟩]
    ⟨2, _, .input (.action (.publishAcknowledge 5)), _, _⟩ [_] rfl (.puback 5) _ rfl List.mem_cons_self
  obtain ⟨m, hm, p, finishes, accepted⟩ := due
  cases finishes
  have deed := (accepts_iff.1 accepted).1
  simp only [List.cons_append, List.nil_append, List.mem_cons, List.not_mem_nil, or_false] at hm
  rcases hm with rfl | rfl | rfl <;> cases deed

end Endpoint
end MqttLink
