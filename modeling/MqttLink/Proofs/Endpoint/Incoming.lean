import MqttLink.Proofs.Endpoint.Story
/-!
# Incoming messages of level 2

A level-2 message is handed to the application exactly once, however often the client sends it, until
the client releases its identifier. Then the identifier can be used for another message.

The invariant is the `Ledger`: what the application has heard under one identifier, and whether the
identifier is held, are two accounts of the same thing. `handing_over` says what a move can do to
either.
-/

namespace MqttLink

/-- What the application hears of the level-2 messages under one identifier. -/
inductive Handover where
  | delivered
  | released
deriving DecidableEq, Repr

namespace Event

/-- What an event says about the level-2 messages under an identifier. -/
def handover (id : PacketId) : Event → Option Handover
  | publishReceived m =>
    if m.qos = .exactlyOnce ∧ m.packetId = some id then some .delivered else none
  | publishReleased id' => if id' = id then some .released else none
  | _ => none

/-- Whether the connection is told to have ended because the client broke the protocol. -/
def isViolation : Event → Bool
  | closed (.protocolError _) _ => true
  | _ => false

end Event

/-- What is heard of the level-2 messages under an identifier, in order. -/
def handovers (id : PacketId) (events : List Event) : List Handover := events.filterMap (·.handover id)

@[simp] theorem handovers_nil (id : PacketId) : handovers id [] = [] := rfl

@[simp] theorem handovers_append (id : PacketId) (events more : List Event) :
    handovers id (events ++ more) = handovers id events ++ handovers id more :=
  List.filterMap_append

/-- So many messages, each delivered and then released. -/
def rounds (n : Nat) : List Handover := (List.replicate n [.delivered, .released]).flatten

theorem rounds_succ (n : Nat) : rounds (n + 1) = rounds n ++ [.delivered, .released] := by
  simp [rounds, List.replicate_succ']

theorem count_released_rounds (n : Nat) : (rounds n).count .released = n := by
  induction n with
  | zero => rfl
  | succ n ih => rw [rounds_succ, List.count_append, ih]; rfl

/-- The delivery of a message that is not released yet. -/
def pending (held : Bool) : List Handover := if held then [.delivered] else []

theorem pending_prefix (n : Nat) (held : Bool) : rounds n ++ pending held <+: rounds (n + 1) := by
  rw [rounds_succ]
  refine (List.prefix_append_right_inj _).2 ?_
  cases held with
  | true => exact ⟨[.released], rfl⟩
  | false => exact ⟨[.delivered, .released], rfl⟩

theorem count_released_pending (n : Nat) (held : Bool) :
    (rounds n ++ pending held).count .released = n := by
  rw [List.count_append, count_released_rounds]
  cases held <;> rfl

/-- The last thing that was heard tells whether a message waits for its release. -/
theorem getLast?_pending (n : Nat) (held : Bool) :
    (rounds n ++ pending held).getLast? = some .delivered ↔ held = true := by
  cases held with
  | true => simp [pending]
  | false =>
    cases n with
    | zero => simp [pending, rounds]
    | succ n => simp [pending, rounds_succ]

namespace Endpoint

open Reaction

/-- Whether a level-2 message waits for PUBREL under an identifier. -/
def holds (e : Endpoint) (id : PacketId) : Bool := e.session.exchanges.isIncoming id

/-- Whether a deed is about the level-2 messages under an identifier. -/
def Deed.concerns (id : PacketId) : Deed → Bool
  | .input (.packet (.publish m)) => m.qos = .exactlyOnce ∧ m.packetId = some id
  | .input (.packet (.pubrel id')) => id' = id
  | _ => false

/-- Whether a packet of an accepted client is dealt with, and fits. -/
def Moment.accepts (m : Moment) (p : Packet) : Bool :=
  m.handles p && m.before.session.isConnected && !m.events.any Event.isViolation

/-! ## One move -/

/-- What a deed does under an identifier: it delivers a message, or releases one, or leaves everything
as it is, unless it ends the connection. -/
inductive Handing (id : PacketId) (m : Moment) : Prop where
  | delivery {message : Publish} (phase : m.before.session.phase = .connected)
    (unheld : m.before.holds id = false) (deed : m.deed = .input (.packet (.publish message)))
    (level : message.qos = .exactlyOnce) (named : message.packetId = some id)
    (told : m.events = [.publishReceived message]) (after : m.after.holds id = true)
  | release (phase : m.before.session.phase = .connected) (held : m.before.holds id = true)
    (accepted : m.accepts (.pubrel id) = true) (told : m.events = [.publishReleased id])
    (after : m.after.holds id = false)
  | apart (silent : handovers id m.events = []) (unaccepted : m.accepts (.pubrel id) = false)
    (same : m.after.isClosed = false → m.after.holds id = m.before.holds id)

theorem holds_insert {e : Endpoint} {f : InFlight} {k : PacketId}
    (hf : f = { e.session.exchanges with incoming := e.session.exchanges.incoming.insert k })
    (id : PacketId) : (e.withExchanges f).holds id = true ↔ k = id ∨ e.holds id = true := by
  subst hf
  exact contains_insert_id _ k id

theorem holds_erase {e : Endpoint} {f : InFlight} {k : PacketId}
    (hf : f = { e.session.exchanges with incoming := e.session.exchanges.incoming.erase k })
    (id : PacketId) : (e.withExchanges f).holds id = true ↔ k ≠ id ∧ e.holds id = true := by
  subst hf
  exact contains_erase_id _ k id

/-- What is outgoing says nothing about what is held. -/
theorem holds_outgoing {e : Endpoint} {f : InFlight} (hf : f.incoming = e.session.exchanges.incoming)
    (id : PacketId) : (e.withExchanges f).holds id = e.holds id :=
  congrArg (·.contains id) hf

theorem accepts_eq_false {m : Moment} {p : Packet} (other : m.deed ≠ .input (.packet p)) :
    m.accepts p = false := by
  simp [Moment.accepts, Moment.handles, other]

theorem accepts_apart {m : Moment} {p : Packet} (apart : m.before.session.phase ≠ .connected) :
    m.accepts p = false := by
  simp [Moment.accepts, Session.isConnected, apart]

theorem accepts_violation {m : Moment} {p : Packet} {event : Event} (told : event ∈ m.events)
    (violation : event.isViolation = true) : m.accepts p = false := by
  have any : m.events.any Event.isViolation = true := List.any_eq_true.2 ⟨event, told, violation⟩
  simp [Moment.accepts, any]

theorem served_handing {now : Instant} {e : Endpoint} {p : Packet} {r : Reaction} (id : PacketId)
    (phase : e.session.phase = .connected) (fits : Served (e.touched now) p r) :
    Handing id ⟨now, e, .input (.packet p), none, r⟩ := by
  cases fits with
  | levelZero level | levelOne level =>
    exact .apart (by simp [handovers, Moment.events, Event.handover, level])
      (accepts_eq_false (by simp)) fun _ => rfl
  | @levelTwo message id' f level named valid unheld hf =>
    by_cases same : id' = id
    · subst same
      exact .delivery phase unheld rfl level named rfl ((holds_insert hf id').2 (.inl rfl))
    · refine .apart ?_ (accepts_eq_false (by simp)) fun _ => Bool.eq_iff_iff.2 ?_
      · simp [handovers, Moment.events, Event.handover, named, same]
      · exact (holds_insert hf id).trans (or_iff_right same)
  | again | subscribe | unsubscribe | pingreq => exact .apart rfl (accepts_eq_false (by simp)) fun _ => rfl
  | puback fits =>
    obtain ⟨-, -, hf⟩ := InFlight.onPuback_eq_ok.1 fits
    exact .apart rfl (accepts_eq_false (by simp)) fun _ => holds_outgoing (by rw [hf]) id
  | pubrec fits =>
    obtain ⟨-, -, hf⟩ := InFlight.onPubrec_eq_ok.1 fits
    exact .apart rfl (accepts_eq_false (by simp)) fun _ => holds_outgoing (by rw [hf]) id
  | pubcomp fits =>
    obtain ⟨-, -, hf⟩ := InFlight.onPubcomp_eq_ok.1 fits
    exact .apart rfl (accepts_eq_false (by simp)) fun _ => holds_outgoing (by rw [hf]) id
  | @pubrel id' f fits =>
    obtain ⟨-, held, hf⟩ := InFlight.onPubrel_eq_ok.1 fits
    have erased := holds_erase hf id
    by_cases same : id' = id
    · subst same
      refine .release phase held ?_ rfl (Bool.eq_false_iff.2 fun h => (erased.1 h).1 rfl)
      simp [Moment.accepts, Moment.handles, Session.isConnected, phase, Moment.events, Event.isViolation]
    · refine .apart ?_ (accepts_eq_false ?_) fun _ => Bool.eq_iff_iff.2 ?_
      · simp [handovers, Moment.events, Event.handover, same]
      · rintro ⟨⟩; exact same rfl
      · exact erased.trans (and_iff_right same)

/-- A request leaves what the client has sent alone. -/
theorem granted_incoming {e : Endpoint} {a : Action} {id : Option PacketId} {r : Reaction}
    (h : Granted e a id r) :
    r.endpoint.session.exchanges.incoming = e.session.exchanges.incoming := by
  cases h with
  | publish _ fits =>
    rcases InFlight.register_eq_ok.1 fits with ⟨-, -, hf⟩ | ⟨-, _, -, -, hf⟩ <;> rw [hf] <;> rfl
  | retransmit fits =>
    rcases (InFlight.retransmit_eq_ok.1 fits).2 with ⟨_, -, -, hf⟩ | ⟨-, -, hf⟩ <;> rw [hf] <;> rfl
  | _ => rfl

/-- The packet that ends a connection is not accepted. -/
theorem ended_accepts {now : Instant} {e : Endpoint} {input : Input} {reason : CloseReason}
    {will : Option Will} (ends : Ends now e input reason) (id : PacketId) :
    Moment.accepts ⟨now, e, .input input, none, ⟨e.ended, #[], #[.closed reason will]⟩⟩ (.pubrel id) =
      false := by
  cases ends with
  | early | violation => exact accepts_violation List.mem_cons_self rfl
  | disconnect | decodeError | transportClosed | noConnect | silent | close => exact accepts_eq_false (by simp)

theorem move_handing {now : Instant} {e : Endpoint} {d : Deed} {answer : Option Answer} {r : Reaction}
    (id : PacketId) (move : Move now e d answer r) : Handing id ⟨now, e, d, answer, r⟩ := by
  cases move with
  | served phase fits => exact served_handing id phase fits
  | granted phase fits =>
    refine .apart ?_ (accepts_eq_false (by simp)) fun _ => congrArg (·.contains id) (granted_incoming fits)
    simp [Moment.events, fits.same_stage.2.2]
  | ignored gone =>
    refine .apart rfl (accepts_apart fun phase => ?_) fun _ => rfl
    rw [isClosed_connected phase] at gone
    cases gone
  | asked phase | deferred phase =>
    refine .apart rfl (accepts_apart fun phase' => ?_) fun _ => rfl
    rw [phase] at phase'
    cases phase'
  | welcomed | idle | denied => exact .apart rfl (accepts_eq_false (by simp)) fun _ => rfl
  | refused opened refuses =>
    refine .apart rfl (accepts_eq_false ?_) fun opened' => ?_
    · cases refuses <;> simp
    · rw [Moment.after, isClosed_ended] at opened'
      cases opened'
  | ended opened ends =>
    refine .apart rfl (ended_accepts ends id) fun opened' => ?_
    rw [Moment.after, isClosed_ended] at opened'
    cases opened'

/-! ## Whole runs -/

/-- So many messages have been delivered and released under an identifier, and one more may wait. -/
structure Ledger (id : PacketId) (past : List Moment) (e : Endpoint) (n : Nat) (held : Bool) : Prop where
  heard : handovers id (told past) = rounds n ++ pending held
  releases : past.countP (·.accepts (.pubrel id)) = n
  holds : e.isClosed = false → e.holds id = held

theorem ledger_next {id : PacketId} {past : List Moment} {e : Endpoint} {n : Nat} {held : Bool}
    {now : Instant} {d : Deed} {answer : Option Answer} {r : Reaction} (h : Ledger id past e n held)
    (move : Move now e d answer r) :
    ∃ n' held', Ledger id (past ++ [⟨now, e, d, answer, r⟩]) r.endpoint n' held' := by
  cases move_handing id move with
  | delivery phase unheld deed level named told after =>
    obtain rfl : false = held := unheld.symm.trans (h.holds (isClosed_connected phase))
    refine ⟨n, true, ?_, ?_, fun _ => after⟩
    · rw [told_snoc, handovers_append, h.heard, told]
      simp [handovers, Event.handover, level, named, pending]
    · rw [List.countP_append, h.releases, List.countP_singleton, accepts_eq_false (by rw [deed]; simp)]
      rfl
  | release phase unreleased accepted told after =>
    obtain rfl : true = held := unreleased.symm.trans (h.holds (isClosed_connected phase))
    refine ⟨n + 1, false, ?_, ?_, fun _ => after⟩
    · rw [told_snoc, handovers_append, h.heard, told]
      simp [handovers, Event.handover, pending, rounds_succ]
    · rw [List.countP_append, h.releases, List.countP_singleton, accepted]
      rfl
  | apart silent unaccepted same =>
    refine ⟨n, held, ?_, ?_, fun opened => (same opened).trans (h.holds (move.opened opened))⟩
    · rw [told_snoc, handovers_append, h.heard, silent, List.append_nil]
    · rw [List.countP_append, h.releases, List.countP_singleton, unaccepted]
      rfl

theorem course_ledger {policy : Policy} {opened : Instant} {past : List Moment} {e : Endpoint}
    (id : PacketId) (h : Course (start policy opened) past e) : ∃ n held, Ledger id past e n held := by
  induction h with
  | start => exact ⟨0, false, rfl, rfl, fun _ => InFlight.incoming_empty id⟩
  | next _ move ih =>
    obtain ⟨n, held, ledger⟩ := ih
    exact ledger_next ledger move

/-- Nothing is heard of messages before the client is let in. -/
theorem Chapter.heard {past : List Moment} {e : Endpoint} (h : Chapter past e) (id : PacketId) :
    e.isClosed = true ∨ e.session.phase = .connected ∨ handovers id (told past) = [] := by
  cases h with
  | waiting _ _ silent => rw [silent]; exact .inr (.inr rfl)
  | deciding _ _ request => rw [request]; exact .inr (.inr rfl)
  | connected phase _ _ _ _ => exact .inr (.inl phase)
  | closed gone _ _ => exact .inl gone

theorem unconcerned_handing {id : PacketId} {m : Moment} (h : Handing id m)
    (unconcerned : m.deed.concerns id = false) :
    handovers id m.events = [] ∧ (m.after.isClosed = false → m.after.holds id = m.before.holds id) := by
  cases h with
  | delivery _ _ deed level named _ _ => simp [deed, Deed.concerns, level, named] at unconcerned
  | release _ _ accepted _ _ =>
    simp only [Moment.accepts, Bool.and_eq_true, Moment.handles_iff] at accepted
    simp [accepted.1.1, Deed.concerns] at unconcerned
  | apart silent _ same => exact ⟨silent, same⟩

/-- A level-2 message of an accepted client is delivered unless its identifier is held. -/
theorem Move.publish_two {now : Instant} {e : Endpoint} {message : Publish} {answer : Option Answer}
    {r : Reaction} {id : PacketId} (move : Move now e (.input (.packet (.publish message))) answer r)
    (phase : e.session.phase = .connected) (level : message.qos = .exactlyOnce)
    (named : message.packetId = some id) (valid : id ≠ 0) :
    r.events.toList = if e.holds id then [] else [.publishReceived message] := by
  cases move with
  | served _ fits =>
    cases fits with
    | levelZero level' => rw [level] at level'; cases level'
    | levelOne level' => rw [level] at level'; cases level'
    | levelTwo _ named' _ unheld _ =>
      cases named.symm.trans named'
      rw [show e.holds id = false from unheld]; rfl
    | again _ named' _ held =>
      cases named.symm.trans named'
      rw [show e.holds id = true from held]; rfl
  | ended _ ends =>
    cases ends with
    | early phase' => rw [phase] at phase'; cases phase'
    | violation _ broken =>
      cases broken with
      | publish fails =>
        obtain ⟨d, f, fits⟩ := InFlight.onPublish_two level named valid
        rw [fits] at fails
        cases fails
      | unexpected kind => simp [Packet.kind] at kind
  | ignored gone => rw [isClosed_connected phase] at gone; cases gone
  | deferred phase' => rw [phase] at phase'; cases phase'
  | refused _ refuses => cases refuses

/-- What has been heard under an identifier decides whether a message under it is told. -/
theorem publish_told {policy : Policy} {opened now : Instant} {past : List Moment} {e : Endpoint}
    {message : Publish} {answer : Option Answer} {r : Reaction} {id : PacketId}
    (before : Course (start policy opened) past e)
    (move : Move now e (.input (.packet (.publish message))) answer r)
    (level : message.qos = .exactlyOnce) (named : message.packetId = some id) (valid : id ≠ 0) :
    ((handovers id (told past)).getLast? = some .delivered → r.events.toList = []) ∧
      ((handovers id (told past)).getLast? ≠ some .delivered → e.session.phase = .connected →
        r.events.toList = [.publishReceived message]) := by
  obtain ⟨n, held, ledger⟩ := course_ledger id before
  rw [ledger.heard, ne_eq, getLast?_pending]
  refine ⟨?_, fun unheld phase => ?_⟩
  · rintro rfl
    rcases (course_chapter before).heard id with gone | phase | unheard
    · obtain ⟨-, -, -, rfl⟩ := move.of_closed gone
      rfl
    · have holds : e.holds id = true := ledger.holds (isClosed_connected phase)
      rw [move.publish_two phase level named valid, if_pos holds]
    · rw [ledger.heard] at unheard
      simp [pending] at unheard
  · have holds : ¬ e.holds id = true := ledger.holds (isClosed_connected phase) ▸ unheld
    rw [move.publish_two phase level named valid, if_neg holds]

/-- **A level-2 message is delivered exactly once.** Under each identifier, the application hears of a
delivery, then of its release, and so on in turn, with one release for each PUBREL that is accepted.
A message under an identifier that is not released is not told again; any other message of an accepted
client is told, once. No other packet or request has a part in this. -/
theorem run_handovers (policy : Policy) (opened : Instant) (inputs : List (Instant × Input))
    {id : PacketId} (valid : id ≠ 0) :
    let events := ((start policy opened).run inputs).events.toList
    let moments := (start policy opened).moments inputs
    (∃ n, handovers id events <+: rounds n) ∧
    (handovers id events).count .released = moments.countP (·.accepts (.pubrel id)) ∧
    ∀ earlier m later, moments = earlier ++ m :: later →
      (∀ message, m.deed = .input (.packet (.publish message)) → message.qos = .exactlyOnce →
        message.packetId = some id →
        ((handovers id (told earlier)).getLast? = some .delivered → m.events = []) ∧
        ((handovers id (told earlier)).getLast? ≠ some .delivered →
          m.before.session.phase = .connected → m.events = [.publishReceived message])) ∧
      (m.deed.concerns id = false →
        handovers id m.events = [] ∧ (m.after.isClosed = false → m.after.holds id = m.before.holds id)) := by
  intro events moments
  have same : events = told moments := moments_events _ _
  obtain ⟨n, held, ledger⟩ := course_ledger id (course_moments (start policy opened) inputs)
  have heard : handovers id events = rounds n ++ pending held := same ▸ ledger.heard
  refine ⟨⟨n + 1, ?_⟩, ?_, ?_⟩
  · rw [heard]; exact pending_prefix n held
  · rw [heard, count_released_pending]; exact ledger.releases.symm
  · rintro earlier ⟨now, e, d, answer, r⟩ later split
    have whole := course_moments (start policy opened) inputs
    rw [show (start policy opened).moments inputs = _ from split] at whole
    obtain ⟨before, move⟩ := course_split whole
    refine ⟨fun message deed level named => ?_, unconcerned_handing (move_handing id move)⟩
    cases deed
    exact publish_told before move level named valid

/-- A client that sends a message before it is let in, sends it once more, and releases it. -/
def impatient : List (Instant × Input) :=
  [(0, .packet (.connect ⟨.v311, "", true, 0, none, none, none⟩)),
    (1, .packet (.publish ⟨false, .exactlyOnce, false, "t", some 7, [1]⟩)),
    (2, .action (.accept false)),
    (3, .packet (.publish ⟨true, .exactlyOnce, false, "t", some 7, [2]⟩)),
    (4, .packet (.pubrel 7))]

theorem impatient_handovers :
    (7 : PacketId) ≠ 0 ∧
    handovers 7 ((start ⟨none, none, true⟩ 0).run impatient).events.toList = [.delivered, .released] ∧
    ((start ⟨none, none, true⟩ 0).moments impatient).countP (·.accepts (.pubrel 7)) = 1 := by
  have valid : (7 : PacketId) ≠ 0 := by decide
  have heard : handovers 7 ((start ⟨none, none, true⟩ 0).run impatient).events.toList =
      [.delivered, .released] := by decide
  have releases := (run_handovers ⟨none, none, true⟩ 0 impatient valid).2.1
  rw [heard] at releases
  exact ⟨valid, heard, releases.symm⟩

end Endpoint
end MqttLink
