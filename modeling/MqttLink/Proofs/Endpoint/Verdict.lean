import MqttLink.Proofs.Exchange.Agreement
import MqttLink.Proofs.Endpoint.Story
/-!
# Which packets an accepted client may send

A packet from an accepted client is served or is the last. `Fits` says which packets are served, from the
records of the exchanges and the two tables of requests alone, and `Verdict` what comes of either.

The records are needed with what holds of them in every history: an exchange is kept under an identifier, so
an acknowledgment of zero never meets one. `course_history` provides that: whatever happens to an endpoint, its
exchanges go through operations of a roster and nothing else.
-/

namespace MqttLink.Endpoint

open Reaction
open Roster (Operation)

/-! ## The exchanges of an endpoint -/

section

variable {e : Endpoint} {r : Reaction}

/-- What is served changes the exchanges by one operation or not at all. -/
theorem Served.operation {p : Packet} (fits : Served e p r) :
    r.endpoint.session.exchanges = e.session.exchanges ∨
      ∃ op, r.endpoint.session.exchanges = (e.session.exchanges.perform op).2 := by
  cases fits with
  | @levelTwo m id f level named valid unheld held =>
    have taken : e.session.exchanges.onPublish m = .ok (.deliver, f) :=
      InFlight.onPublish_eq_ok.2 (.inr (.inr ⟨level, id, named, valid, .inr ⟨unheld, rfl, held⟩⟩))
    exact .inr ⟨.publish m, by rw [InFlight.perform, taken]; rfl⟩
  | puback fits => exact .inr ⟨.puback _, by rw [InFlight.perform, fits]; rfl⟩
  | pubrec fits => exact .inr ⟨.pubrec _, by rw [InFlight.perform, fits]; rfl⟩
  | pubrel fits => exact .inr ⟨.pubrel _, by rw [InFlight.perform, fits]; rfl⟩
  | pubcomp fits => exact .inr ⟨.pubcomp _, by rw [InFlight.perform, fits]; rfl⟩
  | _ => exact .inl rfl

/-- What is granted changes the exchanges by one operation or not at all. -/
theorem Granted.operation {a : Action} {id : Option PacketId} (fits : Granted e a id r) :
    r.endpoint.session.exchanges = e.session.exchanges ∨
      ∃ op, r.endpoint.session.exchanges = (e.session.exchanges.perform op).2 := by
  cases fits with
  | publish name fits => exact .inr ⟨.register _, by rw [InFlight.perform, fits]; rfl⟩
  | retransmit fits => exact .inr ⟨.retransmit _, by rw [InFlight.perform, fits]; rfl⟩
  | _ => exact .inl rfl

theorem Move.operation {now : Instant} {d : Deed} {answer : Option Answer} (move : Move now e d answer r) :
    r.endpoint.session.exchanges = e.session.exchanges ∨
      ∃ op, r.endpoint.session.exchanges = (e.session.exchanges.perform op).2 := by
  cases move with
  | served phase fits => exact fits.operation
  | granted phase fits => exact fits.operation
  | ended opened ends => exact .inr ⟨.clear, rfl⟩
  | refused opened refuses => cases refuses <;> exact .inr ⟨.clear, rfl⟩
  | _ => exact .inl rfl

end

section

variable {policy : Policy} {opened : Instant} {past : List Moment} {e : Endpoint}

/-- **An endpoint does nothing to its exchanges but a roster's operations.** -/
theorem course_history (h : Course (start policy opened) past e) :
    ∃ entries, InFlight.After entries e.session.exchanges := by
  induction h with
  | start => exact ⟨[], .start⟩
  | next before move ih =>
    obtain ⟨entries, history⟩ := ih
    obtain same | ⟨op, after⟩ := move.operation
    · exact ⟨entries, same ▸ history⟩
    · exact ⟨_, after ▸ history.next op⟩

/-- So there is a roster that shows what the endpoint goes by. -/
theorem course_roster (h : Course (start policy opened) past e) :
    ∃ entries roster, Roster.After entries roster ∧ Roster.Agrees roster e.session.exchanges := by
  obtain ⟨entries, history⟩ := course_history h
  obtain ⟨roster, after, agree⟩ := history.agrees
  exact ⟨entries, roster, after, agree⟩

end

/-! ## Packets that fit -/

/-- The packets that an accepted client may send as things are. -/
def Fits (e : Endpoint) : Packet → Prop
  | .publish m => m.qos = .atMostOnce ∨ ∃ id, m.packetId = some id ∧ id ≠ 0
  | .puback id => ∃ x, e.session.exchanges.get? .outbound id = some x ∧ x.qos = .atLeastOnce
  | .pubrec id =>
    ∃ x, e.session.exchanges.get? .outbound id = some x ∧ x.qos = .exactlyOnce ∧ x.stage = .sent
  | .pubcomp id => ∃ x, e.session.exchanges.get? .outbound id = some x ∧ x.stage = .receivedAck
  | .pubrel id => ∃ x, e.session.exchanges.get? .inbound id = some x
  | .subscribe id _ => id ≠ 0 ∧ e.subscribes.contains id = false
  | .unsubscribe id _ => id ≠ 0 ∧ e.unsubscribes.contains id = false
  | .pingreq => True
  | _ => False

/-- A level-2 message that comes once more, before PUBREL. -/
def Repeats (e : Endpoint) : Packet → Prop
  | .publish m => m.qos = .exactlyOnce ∧ ∃ id x, m.packetId = some id ∧
      e.session.exchanges.get? .inbound id = some x
  | _ => False

theorem get?_outbound {f : InFlight} {id : PacketId} {x : InFlight.Exchange} :
    f.get? .outbound id = some x ↔ ∃ y, f.outgoing[id]? = some y ∧ InFlight.Outgoing.describe id y = x :=
  Option.map_eq_some_iff

theorem get?_inbound {f : InFlight} {id : PacketId} :
    (∃ x, f.get? .inbound id = some x) ↔ f.incoming.contains id = true := by
  simp only [InFlight.get?]
  cases f.incoming.contains id <;> simp

variable {e : Endpoint} {p : Packet}

/-- What is served fits. -/
theorem Served.fits {r : Reaction} (served : Served e p r) : Fits e p := by
  cases served with
  | levelZero level => exact .inl level
  | levelOne level named valid => exact .inr ⟨_, named, valid⟩
  | levelTwo level named valid unheld held => exact .inr ⟨_, named, valid⟩
  | again level named valid held => exact .inr ⟨_, named, valid⟩
  | puback fits =>
    obtain ⟨-, ⟨m, sent, level⟩, -⟩ := InFlight.onPuback_eq_ok.1 fits
    exact ⟨_, get?_outbound.2 ⟨_, sent, rfl⟩, level⟩
  | pubrec fits =>
    obtain ⟨-, ⟨m, sent, level⟩, -⟩ := InFlight.onPubrec_eq_ok.1 fits
    exact ⟨_, get?_outbound.2 ⟨_, sent, rfl⟩, level, rfl⟩
  | pubrel fits =>
    obtain ⟨-, held, -⟩ := InFlight.onPubrel_eq_ok.1 fits
    exact get?_inbound.2 held
  | pubcomp fits =>
    obtain ⟨-, due, -⟩ := InFlight.onPubcomp_eq_ok.1 fits
    exact ⟨_, get?_outbound.2 ⟨_, due, rfl⟩, rfl⟩
  | subscribe valid unused => exact ⟨valid, unused⟩
  | unsubscribe valid unused => exact ⟨valid, unused⟩
  | pingreq => trivial

/-- What breaks the protocol does not fit. An exchange under zero would have to be told apart here, but there
is none. -/
theorem Violates.unfit {error : ProtocolError} (sound : InFlight.Sound e.session.exchanges)
    (broken : Violates e p error) : ¬ Fits e p := by
  intro fits
  cases broken with
  | connect c => exact fits
  | @publish m error fails =>
    obtain level | ⟨id, named, valid⟩ := fits
    · rw [InFlight.onPublish_eq_ok.2 (.inl ⟨level, rfl, rfl⟩)] at fails
      cases fails
    · cases level : m.qos with
      | atMostOnce =>
        rw [InFlight.onPublish_eq_ok.2 (.inl ⟨level, rfl, rfl⟩)] at fails
        cases fails
      | atLeastOnce =>
        rw [InFlight.onPublish_eq_ok.2 (.inr (.inl ⟨level, ⟨id, named, valid⟩, rfl, rfl⟩))] at fails
        cases fails
      | exactlyOnce =>
        obtain ⟨d, f, taken⟩ := InFlight.onPublish_two (f := e.session.exchanges) level named valid
        rw [taken] at fails
        cases fails
  | puback fails =>
    obtain ⟨x, shown, level⟩ := fits
    obtain ⟨y, live, rfl⟩ := get?_outbound.1 shown
    cases y with
    | received => cases level
    | sent m =>
      rw [InFlight.onPuback_eq_ok.2 ⟨sound.outgoing live, ⟨m, live, level⟩, rfl⟩] at fails
      cases fails
  | pubrec fails =>
    obtain ⟨x, shown, level, stage⟩ := fits
    obtain ⟨y, live, rfl⟩ := get?_outbound.1 shown
    cases y with
    | received => cases stage
    | sent m =>
      rw [InFlight.onPubrec_eq_ok.2 ⟨sound.outgoing live, ⟨m, live, level⟩, rfl⟩] at fails
      cases fails
  | pubrel fails =>
    have held := get?_inbound.1 fits
    rw [InFlight.onPubrel_eq_ok.2 ⟨sound.incoming held, held, rfl⟩] at fails
    cases fails
  | pubcomp fails =>
    obtain ⟨x, shown, stage⟩ := fits
    obtain ⟨y, live, rfl⟩ := get?_outbound.1 shown
    cases y with
    | sent m => cases stage
    | received =>
      rw [InFlight.onPubcomp_eq_ok.2 ⟨sound.outgoing live, live, rfl⟩] at fails
      cases fails
  | subscribeZero subs => exact fits.1 rfl
  | subscribeAgain valid used =>
    rw [fits.2] at used
    cases used
  | unsubscribeZero filters => exact fits.1 rfl
  | unsubscribeAgain valid used =>
    rw [fits.2] at used
    cases used
  | unexpected kind => cases p <;> first | exact fits | simp [Packet.kind] at kind

/-! ## What comes of a packet -/

/-- How much is told and said about a packet that is served. -/
theorem Served.brief {r : Reaction} (served : Served e p r) :
    r.packets.size ≤ 1 ∧ (Repeats e p → r.events = #[]) ∧ (¬ Repeats e p → r.events.size = 1) := by
  have replied (ack : Packet) : (e.reply ack).size ≤ 1 := by
    unfold reply
    split <;> simp
  cases served with
  | levelZero level => exact ⟨by simp, fun again => by simp [Repeats, level] at again, fun _ => rfl⟩
  | levelOne level named valid =>
    exact ⟨replied _, fun again => by simp [Repeats, level] at again, fun _ => rfl⟩
  | levelTwo level named valid unheld held =>
    refine ⟨replied _, fun ⟨_, id, x, named', shown⟩ => ?_, fun _ => rfl⟩
    rw [named] at named'
    cases named'
    rw [get?_inbound.1 ⟨x, shown⟩] at unheld
    cases unheld
  | again level named valid held =>
    obtain ⟨x, shown⟩ := get?_inbound.2 held
    exact ⟨by simp, fun _ => rfl, fun once => absurd ⟨level, _, x, named, shown⟩ once⟩
  | pubrec fits => exact ⟨replied _, fun again => again.elim, fun _ => rfl⟩
  | pubrel fits => exact ⟨replied _, fun again => again.elim, fun _ => rfl⟩
  | _ => exact ⟨by simp, fun again => again.elim, fun _ => rfl⟩

/-- What comes of a packet from an accepted client. -/
structure Verdict (e : Endpoint) (p : Packet) (r : Reaction) : Prop where
  stays : r.endpoint.session.phase = .connected ↔ Fits e p
  /-- The application is told of it, unless it has been told before, and at most one packet is sent. -/
  served : Fits e p → r.packets.size ≤ 1 ∧ (Repeats e p → r.events = #[]) ∧ (¬ Repeats e p → r.events.size = 1)
  /-- Nothing is sent or told on account of a packet that does not fit but the end. -/
  ends : ¬ Fits e p → r.endpoint.session.phase = .closed ∧ r.packets = #[] ∧
    ∃ reason will, r.events = #[.closed reason will] ∧ (p = .disconnect → reason = .graceful) ∧
      (p ≠ .disconnect → ∃ error, reason = .protocolError error)

/-- **A packet is served exactly if it fits**, and is the last one otherwise. -/
theorem receive_verdict {policy : Policy} {opened : Instant} {past : List Moment}
    (reached : Course (start policy opened) past e) (phase : e.session.phase = .connected) (now : Instant)
    (p : Packet) : Verdict e p (e.receive now p) := by
  obtain ⟨entries, history⟩ := course_history reached
  have sound : InFlight.Sound (e.touched now).session.exchanges := history.sound
  have received : e.receive now p = (e.touched now).dispatch p := by
    unfold receive
    rw [phase]
    rfl
  have closing (reason : CloseReason) : (e.touched now).closeWith reason =
      ⟨e.ended, #[], #[.closed reason (e.releasedWill reason)]⟩ :=
    closeWith_open reason (isClosed_connected phase)
  -- A packet that is the last one, for whatever reason.
  have last (reason : CloseReason) (unfit : ¬ Fits e p)
      (ends : e.receive now p = (e.touched now).closeWith reason)
      (graceful : p = .disconnect → reason = .graceful)
      (broken : p ≠ .disconnect → ∃ error, reason = .protocolError error) : Verdict e p (e.receive now p) := by
    rw [ends, closing]
    exact { stays := ⟨nofun, fun fits => absurd fits unfit⟩
            served := fun fits => absurd fits unfit
            ends := fun _ => ⟨rfl, rfl, reason, _, rfl, graceful, broken⟩ }
  rw [received] at last ⊢
  obtain served | ⟨error, broken, ends⟩ | ⟨rfl, ends⟩ := dispatch_cases (e.touched now) p
  · have fits : Fits e p := served.fits
    exact { stays := ⟨fun _ => fits, fun _ => served.same_stage.1.trans phase⟩
            served := fun _ => served.brief
            ends := fun unfit => absurd fits unfit }
  · refine last _ (fun fits => broken.unfit sound fits) ends (fun same => ?_) fun _ => ⟨error, rfl⟩
    subst same
    cases broken with
    | unexpected kind => simp [Packet.kind] at kind
  · exact last .graceful (fun fits => fits) ends (fun _ => rfl) fun other => absurd rfl other

/-- A client that is let in and sent a message at level 2. -/
def addressed : List (Instant × Input) :=
  [(0, .packet (.connect ⟨.v311, "c", true, 0, none, none, none⟩)), (1, .action (.accept false)),
    (2, .action (.publish "u" [3] .exactlyOnce false false))]

/-- PUBREC fits then, and PUBCOMP does not yet. -/
theorem addressed_verdict :
    let e := ((start ⟨none, none, true⟩ 0).run addressed).endpoint
    Course (start ⟨none, none, true⟩ 0) ((start ⟨none, none, true⟩ 0).moments addressed) e ∧
      e.session.phase = .connected ∧ (e.receive 3 (.pubrec 1)).endpoint.session.phase = .connected ∧
      (e.receive 3 (.pubcomp 1)).events = #[.closed (.protocolError (.unexpectedStage .pubcomp 1)) none] ∧
      Verdict e (.pubrec 1) (e.receive 3 (.pubrec 1)) ∧ Verdict e (.pubcomp 1) (e.receive 3 (.pubcomp 1)) := by
  intro e
  have reached : Course (start ⟨none, none, true⟩ 0) _ e := course_moments _ addressed
  have phase : e.session.phase = .connected := by decide +kernel
  exact ⟨reached, phase, by decide +kernel, by decide +kernel, receive_verdict reached phase 3 _,
    receive_verdict reached phase 3 _⟩

end MqttLink.Endpoint
