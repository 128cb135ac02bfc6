import Mathlib.Data.List.Basic
import MqttLink.Proofs.Endpoint.Story
/-!
# The answer to CONNECT

A client gets one CONNACK and gets it first, or it gets nothing at all. It is refused with a code, and
then it hears nothing more; or it is let in, and then all that follows are other packets.

The invariant is the `Reply`: what has been said, which accepts have gone through and for which refusal
the connection has ended, all at once. `Docket` adds what the decision is about: no packet has come before
CONNECT, and the CONNECT that the application was asked about is the one that the answer goes by.
-/

namespace MqttLink

/-- The code for which the connection is told to have ended, if it was refused. -/
def Event.refusal : Event → Option ConnectCode
  | closed (.rejected code) _ => some code
  | _ => none

/-- Whether a request decides about the client. -/
def Action.decides : Action → Bool
  | accept _ | reject _ => true
  | _ => false

namespace Endpoint

open Reaction

/-- What a client can be sent over one connection. -/
inductive Speech : List Packet → Prop where
  | silence : Speech []
  | refusal {code : ConnectCode} (failure : code.isAccepted = false) : Speech [.connack false code]
  | welcome {present : Bool} {rest : List Packet} (once : ∀ p ∈ rest, p.kind ≠ .connack) :
    Speech (.connack present .accepted :: rest)

/-- The refusals that are told. -/
def refusals (events : List Event) : List ConnectCode := events.filterMap Event.refusal

theorem mem_refusals {events : List Event} {code : ConnectCode} :
    code ∈ refusals events ↔ ∃ will, .closed (.rejected code) will ∈ events := by
  rw [refusals, List.mem_filterMap]
  constructor
  · rintro ⟨event, told, refusal⟩
    unfold Event.refusal at refusal
    split at refusal
    · cases refusal; exact ⟨_, told⟩
    · cases refusal
  · rintro ⟨will, told⟩
    exact ⟨_, told, rfl⟩

/-! ## Accepts that go through -/

/-- The flag of an accept that goes through. -/
def Entry.admission (x : Entry) : Option Bool :=
  match x.input, x.answer with
  | .action (.accept present), some (.ok _) => some present
  | _, _ => none

/-- The flag with which a client is let in here. -/
def Moment.admission (m : Moment) : Option Bool :=
  match m.deed with
  | .welcome present => some present
  | _ => none

/-- The flags with which the client has been let in. -/
def admissions (past : List Moment) : List Bool := past.filterMap Moment.admission

theorem admissions_packets (now : Instant) (ps : List Packet) (e : Endpoint) :
    admissions (play now e (ps.map fun p => .input (.packet p))) = [] := by
  induction ps generalizing e with
  | nil => rfl
  | cons p ps ih => exact ih _

/-- An accept that is a deed of its own is turned down. -/
theorem Move.accept_fails {now : Instant} {e : Endpoint} {present : Bool} {answer : Option Answer}
    {r : Reaction} (move : Move now e (.input (.action (.accept present))) answer r) :
    ∃ error, answer = some (.error error) := by
  cases move with
  | ignored _ => exact ⟨_, rfl⟩
  | denied _ _ => exact ⟨_, rfl⟩
  | granted _ fits => cases fits
  | refused _ refuses => cases refuses
  | ended _ ends => cases ends

/-- An accept that goes through lets the client in once, at its first moment. -/
theorem entry_admission (x : Entry) : x.admission.toList = admissions x.moments := by
  obtain ⟨time, input, before⟩ := x
  rcases possible_or_accept before input with single | ⟨present, rfl, able⟩
  · rw [moments_single single]
    cases input with
    | action a =>
      cases a with
      | accept present =>
        obtain ⟨error, turned⟩ := (perform_move time single).accept_fails
        change (before.step time _).1 = _ at turned
        simp [Entry.admission, Entry.answer, turned, admissions, Moment.admission]
      | _ => rfl
    | _ => rfl
  · obtain ⟨due, deferred, asked, hd⟩ := deeds_accept present able
    have rest := admissions_packets time deferred.toList (perform time (.welcome present) before).2.endpoint
    simp only [Entry.moments, hd, Entry.admission, Entry.answer,
      step_accept time present (canAccept_iff.1 able).1 asked]
    exact congrArg (present :: ·) rest.symm

/-- **The accepts that go through are those that let the client in.** -/
theorem log_admissions (e : Endpoint) (inputs : List (Instant × Input)) :
    (e.log inputs).filterMap Entry.admission = admissions (e.moments inputs) := by
  rw [admissions, moments, List.filterMap_flatMap, List.filterMap_eq_flatMap_toList]
  exact congrArg (List.flatMap · _) (funext entry_admission)

/-! ## What a move says -/

theorem Served.packets_kind {e : Endpoint} {p : Packet} {r : Reaction} (h : Served e p r) :
    ∀ q ∈ r.packets.toList, q.kind ≠ .connack := by
  have own (ack : Packet) (kind : ack.kind ≠ .connack) : ∀ q ∈ (e.reply ack).toList, q.kind ≠ .connack := by
    unfold reply
    split <;> simp [kind]
  cases h with
  | levelOne | levelTwo | pubrec | pubrel => exact own _ (by simp [Packet.kind])
  | _ => simp [Packet.kind]

theorem Granted.packets_kind {e : Endpoint} {a : Action} {id : Option PacketId} {r : Reaction}
    (h : Granted e a id r) : ∀ q ∈ r.packets.toList, q.kind ≠ .connack := by
  cases h with
  | retransmit fits =>
    obtain ⟨-, ⟨m, -, rfl, -⟩ | ⟨-, rfl, -⟩⟩ := InFlight.retransmit_eq_ok.1 fits <;> simp [Packet.kind]
  | _ => simp [Packet.kind]

/-- Only a CONNACK tells of a refusal. -/
theorem Ends.unrefused {now : Instant} {e : Endpoint} {input : Input} {reason : CloseReason}
    {will : Option Will} (h : Ends now e input reason) : (Event.closed reason will).refusal = none := by
  cases h <;> rfl

theorem Served.unrefused {e : Endpoint} {p : Packet} {r : Reaction} (h : Served e p r) :
    refusals r.events.toList = [] := by
  cases h <;> rfl

/-! ## What the decision is about -/

/-- As long as a connection waits for CONNECT, no packet has come; and as long as it waits for the
decision, the application has been asked about a CONNECT, by which the deadline and the session go. -/
structure Docket (policy : Policy) (past : List Moment) (e : Endpoint) : Prop where
  unheard : e.session.phase = .awaitingConnect → e.isAwaitingDecision = false →
    ∀ m ∈ past, ∀ p, m.deed ≠ .input (.packet p)
  asked : ∀ {due held}, e.session.phase = .awaitingConnect → e.handshake = .deciding due held →
    ∃ m ∈ past, ∃ c, m.events = [.connectRequest c] ∧ due = policy.acceptTimeout.map (m.time + ·) ∧
      e.session.cleanSession = c.cleanSession

namespace Docket

variable {policy : Policy} {past : List Moment} {e e' : Endpoint}

/-- A moment at which no packet is dealt with and nothing changes. -/
theorem quiet {m : Moment} (h : Docket policy past e) (other : ∀ p, m.deed ≠ .input (.packet p)) :
    Docket policy (past ++ [m]) e where
  unheard phase undecided m' hm := by
    rcases List.mem_append.1 hm with hm | hm
    · exact h.unheard phase undecided m' hm
    · rw [List.mem_singleton.1 hm]; exact other
  asked phase asked := by
    obtain ⟨m', hm, c, told⟩ := h.asked phase asked
    exact ⟨m', List.mem_append_left _ hm, c, told⟩

/-- Once the decision has been made there is nothing to be said about it. -/
theorem decided (phase : e.session.phase ≠ .awaitingConnect) : Docket policy past e where
  unheard phase' := absurd phase' phase
  asked phase' := absurd phase' phase

end Docket

theorem docket_next {policy : Policy} {past : List Moment} {e : Endpoint} {now : Instant} {d : Deed}
    {answer : Option Answer} {r : Reaction} (h : Docket policy past e) (same : e.policy = policy)
    (move : Move now e d answer r) : Docket policy (past ++ [⟨now, e, d, answer, r⟩]) r.endpoint := by
  cases move with
  | ignored gone =>
    refine .decided fun phase => ?_
    have opened : e.isClosed = false := isClosed_awaiting phase
    rw [gone] at opened
    cases opened
  | idle | denied => exact h.quiet (by simp)
  | @asked c phase undecided named =>
    refine ⟨fun _ undecided' => by simp [isAwaitingDecision] at undecided', fun {due held} _ asked => ?_⟩
    cases asked
    exact ⟨_, List.mem_append_right _ List.mem_cons_self, c, rfl, by rw [same], rfl⟩
  | @deferred p due held phase asked =>
    refine ⟨fun _ undecided' => by simp [isAwaitingDecision] at undecided', fun {due' held'} _ asked' => ?_⟩
    cases asked'
    obtain ⟨m, hm, c, told⟩ := h.asked phase asked
    exact ⟨m, List.mem_append_left _ hm, c, told⟩
  | welcomed able => exact .decided (by rintro ⟨⟩)
  | served phase fits => exact .decided (by rw [fits.same_stage.1]; simp [touched, Session.touch, phase])
  | granted phase fits => exact .decided (by rw [fits.same_stage.1, phase]; rintro ⟨⟩)
  | refused opened refuses => exact .decided (by rintro ⟨⟩)
  | ended opened ends => exact .decided (by rintro ⟨⟩)

theorem course_docket {policy : Policy} {opened : Instant} {past : List Moment} {e : Endpoint}
    (h : Course (start policy opened) past e) : Docket policy past e := by
  induction h with
  | start => exact ⟨fun _ _ => List.forall_mem_nil _, fun _ asked => by cases asked⟩
  | next before move ih => exact docket_next ih (course_policy before) move

/-! ## What has been said -/

/-- What has been said to the client, with the accepts that have gone through and the refusals that have
been told. -/
inductive Reply (past : List Moment) (e : Endpoint) : Prop where
  | none (unaccepted : e.session.phase ≠ .connected) (silent : said past = [])
    (unadmitted : admissions past = []) (unrefused : refusals (told past) = [])
  | refusal {code : ConnectCode} (gone : e.isClosed = true) (failure : code.isAccepted = false)
    (only : said past = [.connack false code]) (unadmitted : admissions past = [])
    (refused : refusals (told past) = [code])
  | welcome {present : Bool} {c : Connect} {rest : List Packet}
    (decided : e.session.phase ≠ .awaitingConnect) (asked : .connectRequest c ∈ told past)
    (first : said past = .connack (present && !c.cleanSession) .accepted :: rest)
    (once : ∀ p ∈ rest, p.kind ≠ .connack) (admitted : admissions past = [present])
    (unrefused : refusals (told past) = [])

theorem admissions_snoc (past : List Moment) (m : Moment) :
    admissions (past ++ [m]) = admissions past ++ m.admission.toList :=
  filterMap_snoc Moment.admission past m

theorem refusals_snoc (past : List Moment) (m : Moment) :
    refusals (told (past ++ [m])) = refusals (told past) ++ refusals m.events := by
  rw [told_snoc, refusals, List.filterMap_append]; rfl

namespace Reply

variable {past : List Moment} {e e' : Endpoint} {m : Moment}

theorem undecided (h : Reply past e) (phase : e.session.phase = .awaitingConnect) :
    said past = [] ∧ admissions past = [] ∧ refusals (told past) = [] := by
  cases h with
  | none _ silent unadmitted unrefused => exact ⟨silent, unadmitted, unrefused⟩
  | refusal gone => rw [isClosed_awaiting phase] at gone; cases gone
  | welcome decided => exact absurd phase decided

/-- A moment at which no CONNACK is sent. After it the connection is at the same stage, or it is over. -/
theorem talk (h : Reply past e) (other : ∀ p ∈ m.packets, p.kind ≠ .connack)
    (heard : e.session.phase ≠ .connected → m.packets = []) (unadmitted : m.admission = .none)
    (unrefused : refusals m.events = [])
    (stage : e'.session.phase = e.session.phase ∨ e'.isClosed = true) : Reply (past ++ [m]) e' := by
  have same : admissions (past ++ [m]) = admissions past := by
    rw [admissions_snoc, unadmitted]; exact List.append_nil _
  have same' : refusals (told (past ++ [m])) = refusals (told past) := by
    rw [refusals_snoc, unrefused, List.append_nil]
  cases h with
  | none unaccepted silent none none' =>
    refine .none ?_ (by rw [said_snoc, silent, heard unaccepted]; rfl) (same.trans none) (same'.trans none')
    rcases stage with stage | gone
    · rw [stage]; exact unaccepted
    · intro phase
      rw [isClosed_connected phase] at gone
      cases gone
  | refusal isOver failure only none refused =>
    have apart : e.session.phase ≠ .connected := by
      intro phase
      rw [isClosed_connected phase] at isOver
      cases isOver
    refine .refusal ?_ failure (by rw [said_snoc, only, heard apart]; rfl) (same.trans none)
      (same'.trans refused)
    rcases stage with stage | gone
    · rw [← isOver]; simp only [isClosed, Session.isClosing, stage]
    · exact gone
  | welcome decided asked first once admitted none =>
    refine .welcome ?_ (told_kept m asked)
      (by rw [said_snoc, first]; rfl) ?_ (same.trans admitted) (same'.trans none)
    · rcases stage with stage | gone
      · rw [stage]; exact decided
      · intro phase
        rw [isClosed_awaiting phase] at gone
        cases gone
    · intro p hp
      rcases List.mem_append.1 hp with hp | hp
      · exact once p hp
      · exact other p hp

end Reply

/-- A connection that waits for the decision has not come further than that. -/
theorem Chapter.awaiting {past : List Moment} {e : Endpoint} (h : Chapter past e) (opened : e.isClosed = false)
    (asked : e.isAwaitingDecision = true) : e.session.phase = .awaitingConnect := by
  cases h with
  | waiting phase => exact phase
  | deciding phase => exact phase
  | connected _ decided => simp [isAwaitingDecision, decided] at asked
  | closed gone => rw [gone] at opened; cases opened

theorem Refuses.awaiting {now : Instant} {past : List Moment} {e e' : Endpoint} {input : Input}
    {answer : Option Answer} {code : ConnectCode} (h : Refuses now e input answer code e')
    (chapter : Chapter past e) (opened : e.isClosed = false) : e.session.phase = .awaitingConnect := by
  cases h with
  | reject _ asked => exact chapter.awaiting opened asked
  | nameless phase | level phase | undecided phase => exact phase

theorem Refuses.failure {now : Instant} {e e' : Endpoint} {input : Input} {answer : Option Answer}
    {code : ConnectCode} (h : Refuses now e input answer code e') : code.isAccepted = false := by
  cases h with
  | reject failure _ => exact failure
  | nameless | level | undecided => rfl

theorem reply_next {policy : Policy} {past : List Moment} {e : Endpoint} {now : Instant} {d : Deed}
    {answer : Option Answer} {r : Reaction} (h : Reply past e) (chapter : Chapter past e)
    (docket : Docket policy past e) (move : Move now e d answer r) :
    Reply (past ++ [⟨now, e, d, answer, r⟩]) r.endpoint := by
  cases move with
  | ignored | idle | denied => exact h.talk (List.forall_mem_nil _) (fun _ => rfl) rfl rfl (.inl rfl)
  | asked | deferred => exact h.talk (List.forall_mem_nil _) (fun _ => rfl) rfl rfl (.inl rfl)
  | served phase fits =>
    exact h.talk fits.packets_kind (absurd phase) rfl fits.unrefused (.inl fits.same_stage.1)
  | granted phase fits =>
    obtain ⟨stage, -, silent⟩ := fits.same_stage
    exact h.talk fits.packets_kind (absurd phase) rfl (by rw [Moment.events, silent]; rfl) (.inl stage)
  | ended opened ends =>
    refine h.talk (List.forall_mem_nil _) (fun _ => rfl) rfl ?_ (.inr (isClosed_ended _))
    simp [Moment.events, refusals, ends.unrefused]
  | refused opened refuses =>
    obtain ⟨silent, unadmitted, unrefused⟩ := h.undecided (refuses.awaiting chapter opened)
    refine .refusal (isClosed_ended _) refuses.failure ?_ ?_ ?_
    · rw [said_snoc, silent]; rfl
    · rw [admissions_snoc, unadmitted]; rfl
    · rw [refusals_snoc, unrefused]; rfl
  | @welcomed present able =>
    obtain ⟨opened, due, held, asked⟩ := canAccept_iff.1 able
    have phase := chapter.awaiting opened (by simp [isAwaitingDecision, asked])
    obtain ⟨silent, unadmitted, unrefused⟩ := h.undecided phase
    obtain ⟨m, hm, c, events, -, clean⟩ := docket.asked phase asked
    have told : .connectRequest c ∈ told past :=
      List.mem_flatMap.2 ⟨m, hm, by rw [events]; exact List.mem_cons_self⟩
    have first : said past ++ [.connack (present && !e.session.cleanSession) .accepted] =
        [.connack (present && !c.cleanSession) .accepted] := by rw [silent, clean]; rfl
    refine .welcome (by rintro ⟨⟩) (told_kept _ told) ((said_snoc _ _).trans first) (List.forall_mem_nil _)
      ?_ ?_
    · rw [admissions_snoc, unadmitted]; rfl
    · rw [refusals_snoc, unrefused]; rfl

theorem course_reply {policy : Policy} {opened : Instant} {past : List Moment} {e : Endpoint}
    (h : Course (start policy opened) past e) : Reply past e := by
  induction h with
  | start => exact .none nofun rfl rfl rfl
  | next before move ih => exact reply_next ih (course_chapter before) (course_docket before) move

/-! ## Whole runs -/

/-- The ways in which a client comes to be refused, each with the code. -/
inductive Refusal (policy : Policy) (earlier : List Entry) (x : Entry) : ConnectCode → Prop where
  /-- The application has turned it away. -/
  | rejected {code : ConnectCode} (request : x.input = .action (.reject code))
    (granted : x.answer = some (.ok none)) : Refusal policy earlier x code
  /-- The application has been asked and has not decided in time. -/
  | undecided {y : Entry} {c : Connect} {limit : Nat} (passes : x.input = .timeout) (before : y ∈ earlier)
    (asked : .connectRequest c ∈ y.events) (limited : policy.acceptTimeout = some limit)
    (late : y.time + limit ≤ x.time) : Refusal policy earlier x .serverUnavailable
  /-- It wants a lasting session and has no name. -/
  | nameless {c : Connect} (comes : x.input = .packet (.connect c)) (unnamed : c.clientId.isEmpty = true)
    (lasting : c.cleanSession = false) : Refusal policy earlier x .identifierRejected
  /-- It speaks an unknown level, and no CONNECT has come before. -/
  | level {level : UInt8} (comes : x.input = .decodeError (.unsupportedProtocolVersion level))
    (first : ∀ y ∈ earlier, ∀ c, y.input ≠ .packet (.connect c)) :
    Refusal policy earlier x .unacceptableProtocolVersion

/-- Whoever is asked in a moment of a run is asked in an entry of its log, at the same time. -/
theorem log_of_moments {e : Endpoint} {inputs : List (Instant × Input)} {m : Moment}
    (hm : m ∈ e.moments inputs) : ∃ y ∈ e.log inputs, y.time = m.time ∧ ∀ event ∈ m.events, event ∈ y.events := by
  obtain ⟨y, hy, hm⟩ := List.mem_flatMap.1 hm
  refine ⟨y, hy, (play_mem hm).1.symm, fun event told => ?_⟩
  rw [entry_events]
  exact List.mem_flatMap.2 ⟨m, hm, told⟩

/-- A packet that meets the endpoint meets it in a moment. -/
theorem moments_of_packet {e : Endpoint} {inputs : List (Instant × Input)} {y : Entry} {p : Packet}
    (hy : y ∈ e.log inputs) (comes : y.input = .packet p) :
    ∃ m ∈ e.moments inputs, m.deed = .input (.packet p) := by
  have single : Possible y.before (.input y.input) := by rw [comes]; trivial
  refine ⟨⟨y.time, y.before, .input y.input, y.answer, y.reaction⟩, List.mem_flatMap.2 ⟨y, hy, ?_⟩,
    congrArg Deed.input comes⟩
  rw [moments_single single]
  exact List.mem_cons_self

/-- A move that sends a CONNACK with a failure refuses the client. -/
theorem Move.refuses {now : Instant} {e : Endpoint} {input : Input} {answer : Option Answer} {r : Reaction}
    {code : ConnectCode} (h : Move now e (.input input) answer r) (sent : .connack false code ∈ r.packets.toList) :
    e.isClosed = false ∧ ∃ e', Refuses now e input answer code e' := by
  cases h with
  | refused opened refuses =>
    cases List.mem_singleton.1 sent
    exact ⟨opened, _, refuses⟩
  | served _ fits => exact absurd rfl (fits.packets_kind _ sent)
  | granted _ fits => exact absurd rfl (fits.packets_kind _ sent)
  | ignored | asked | deferred | idle | denied | ended => cases sent

/-- A client that is let in is not refused in the same breath. -/
theorem accepting_entry {policy : Policy} {opened : Instant} {past : List Moment} {x : Entry} {present : Bool}
    {code : ConnectCode} (course : Course (start policy opened) past x.before)
    (admits : x.admission = some present) (failure : code.isAccepted = false) :
    .connack false code ∉ x.packets := by
  intro sent
  have whole : .connack false code ∈ said (past ++ x.moments) := by
    rw [said, List.flatMap_append, ← said, ← said, ← entry_packets]
    exact List.mem_append_right _ sent
  have admitted : present ∈ admissions (past ++ x.moments) := by
    rw [admissions, List.filterMap_append, ← admissions, ← admissions, ← entry_admission, admits]
    exact List.mem_append_right _ List.mem_cons_self
  cases course_reply (course_entry x course) with
  | none _ silent => rw [silent] at whole; cases whole
  | refusal _ _ _ unadmitted => rw [unadmitted] at admitted; cases admitted
  | welcome _ _ first once =>
    rw [first] at whole
    rcases List.mem_cons.1 whole with same | later
    · rw [(Packet.connack.inj same).2] at failure; cases failure
    · exact once _ later rfl

/-- **A client is refused for one of four reasons.** -/
theorem refusing_entry {policy : Policy} {opened : Instant} {inputs : List (Instant × Input)} {x : Entry}
    {code : ConnectCode} (hx : x.before = ((start policy opened).run inputs).endpoint)
    (failure : code.isAccepted = false) (sent : .connack false code ∈ x.packets) :
    Refusal policy ((start policy opened).log inputs) x code := by
  have course := course_moments (start policy opened) inputs
  rw [← hx] at course
  have docket := course_docket course
  rcases possible_or_accept x.before x.input with single | ⟨present, accepts, able⟩
  · obtain ⟨isOpen, e', refuses⟩ := (perform_move x.time single).refuses sent
    generalize comes : x.input = input, answered : (perform x.time (.input x.input) x.before).1 = answer
      at refuses
    cases refuses with
    | reject failure asked => exact .rejected comes answered
    | @nameless c phase undecided lasting =>
      simp only [Bool.and_eq_true, Bool.not_eq_true'] at lasting
      exact .nameless comes lasting.1 lasting.2
    | level phase undecided =>
      refine .level comes fun y hy c connects => ?_
      obtain ⟨m, hm, deed⟩ := moments_of_packet hy connects
      exact docket.unheard phase undecided m hm _ deed
    | undecided phase asked late =>
      obtain ⟨m, hm, c, told, rfl, -⟩ := docket.asked phase asked
      obtain ⟨y, hy, time, heard⟩ := log_of_moments hm
      obtain ⟨limit, limited, due⟩ : ∃ limit, policy.acceptTimeout = some limit ∧ m.time + limit ≤ x.time := by
        cases limited : policy.acceptTimeout with
        | none => simp [isDue, limited] at late
        | some limit => exact ⟨limit, rfl, by simpa [isDue, limited] using late⟩
      exact .undecided comes hy (heard _ (by rw [told]; exact List.mem_cons_self)) limited (time ▸ due)
  · have admits : x.admission = some present := by
      obtain ⟨opened, due, deferred, asked⟩ := canAccept_iff.1 able
      simp only [Entry.admission, Entry.answer, accepts, step_accept x.time present opened asked]
    exact absurd sent (accepting_entry course admits failure)

/-- An accept or a reject that goes through is heard by the client. -/
theorem decision_heard {x : Entry} {a : Action} {id : Option PacketId} (request : x.input = .action a)
    (decides : a.decides = true) (granted : x.answer = some (.ok id)) : x.packets ≠ [] := by
  obtain ⟨time, input, before⟩ := x
  cases request
  rcases possible_or_accept before (.action a) with single | ⟨present, accepts, able⟩
  · have move := perform_move time single
    simp only [Entry.answer, Entry.packets, Entry.reaction, perform] at granted move ⊢
    rw [granted] at move
    generalize (before.step time (.action a)).2 = r at move ⊢
    cases move with
    | refused _ _ => simp
    | granted _ fits => cases fits <;> cases decides
  · obtain ⟨due, deferred, -, hd⟩ := deeds_accept present able
    rw [entry_packets, Entry.moments, accepts, hd]
    simp [play, said, Moment.packets, perform, welcome, send]

/-- **The client gets one CONNACK, and gets it first.** Whatever happens to an endpoint, in whatever
order: it sends nothing, and then no decision has been granted; or the one CONNACK that refuses the client,
and that is the case if and only if the connection is told to have ended for this refusal, which has one of
the four reasons; or it begins with the CONNACK that lets the client in and sends no other, and that is the
case if and only if a single accept has gone through. The session is claimed to be present if that accept
says so and the CONNECT, about which the application was asked, wants a lasting one. -/
theorem run_connack (policy : Policy) (opened : Instant) (inputs : List (Instant × Input)) :
    let r := (start policy opened).run inputs
    let log := (start policy opened).log inputs
    Speech r.packets.toList ∧
    (r.packets.toList = [] → ∀ x ∈ log, ∀ a, x.input = .action a → a.decides = true →
      ∀ id, x.answer ≠ some (.ok id)) ∧
    (∀ code, code.isAccepted = false ∧ r.packets.toList = [.connack false code] ↔
      ∃ will, .closed (.rejected code) will ∈ r.events.toList) ∧
    (∀ code, code.isAccepted = false → r.packets.toList = [.connack false code] →
      ∃ earlier x later, log = earlier ++ x :: later ∧ .connack false code ∈ x.packets ∧
        Refusal policy earlier x code) ∧
    ((∃ present rest, r.packets.toList = .connack present .accepted :: rest) ↔
      ∃ present, log.filterMap Entry.admission = [present]) ∧
    ∀ present, log.filterMap Entry.admission = [present] →
      ∃ c rest, .connectRequest c ∈ r.events.toList ∧
        r.packets.toList = .connack (present && !c.cleanSession) .accepted :: rest := by
  intro r log
  have packets : r.packets.toList = said ((start policy opened).moments inputs) := moments_packets _ _
  have events : r.events.toList = told ((start policy opened).moments inputs) := moments_events _ _
  have admitted : log.filterMap Entry.admission = admissions ((start policy opened).moments inputs) :=
    log_admissions _ _
  have reply : Reply ((start policy opened).moments inputs) r.endpoint :=
    course_reply (course_moments (start policy opened) inputs)
  have heard : r.packets.toList = log.flatMap Entry.packets := log_packets _ _
  refine ⟨?_, ?_, ?_, ?_, ?_, ?_⟩
  · rw [packets]
    cases reply with
    | none _ silent => rw [silent]; exact .silence
    | refusal _ failure only => rw [only]; exact .refusal failure
    | welcome _ _ first once => rw [first]; exact .welcome once
  · intro silent x hx a request decides id granted
    rw [heard, List.flatMap_eq_nil_iff] at silent
    exact decision_heard request decides granted (silent x hx)
  · intro code
    rw [packets, events, ← mem_refusals]
    cases reply with
    | none _ silent _ unrefused => simp [silent, unrefused]
    | refusal _ failure only _ refused =>
      rw [only, refused, List.mem_singleton]
      constructor
      · rintro ⟨-, same⟩; cases same; rfl
      · rintro rfl; exact ⟨failure, rfl⟩
    | welcome _ _ first _ _ unrefused =>
      rw [first, unrefused]
      constructor
      · rintro ⟨failure, same⟩
        rw [← (Packet.connack.inj (List.cons.inj same).1).2] at failure
        cases failure
      · nofun
  · intro code failure only
    have sent : .connack false code ∈ log.flatMap Entry.packets := by
      rw [← heard, only]; exact List.mem_cons_self
    obtain ⟨x, hx, sent⟩ := List.mem_flatMap.1 sent
    obtain ⟨earlier, later, split⟩ := List.append_of_mem hx
    obtain ⟨first, rfl, before⟩ := log_split split
    exact ⟨_, x, later, split, sent, refusing_entry before failure sent⟩
  · rw [packets, admitted]
    cases reply with
    | none _ silent unadmitted => simp [silent, unadmitted]
    | refusal _ failure only unadmitted =>
      rw [only, unadmitted]
      constructor
      · rintro ⟨_, _, same⟩; cases same; cases failure
      · rintro ⟨_, same⟩; cases same
    | welcome _ _ first _ admitted => exact ⟨fun _ => ⟨_, admitted⟩, fun _ => ⟨_, _, first⟩⟩
  · intro present single
    rw [admitted] at single
    rw [packets, events]
    cases reply with
    | none _ _ unadmitted => rw [unadmitted] at single; cases single
    | refusal _ _ _ unadmitted => rw [unadmitted] at single; cases single
    | @welcome flag c rest _ asked first _ admitted =>
      cases admitted.symm.trans single
      exact ⟨c, rest, asked, first⟩

end Endpoint
end MqttLink
