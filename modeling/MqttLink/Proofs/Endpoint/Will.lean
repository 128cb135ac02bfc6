import MqttLink.Proofs.Endpoint.Connack
/-!
# The will of a client

A client names its will in CONNECT, before it is let in. `run_will` says when the end of the connection
releases it: exactly if the client has been let in and has not taken its leave. The will is noted when
CONNECT comes and is not looked at again before the end (`Kept`), so everything turns on the phase in which
the connection is when it ends (`Closing`).
-/

namespace MqttLink.Endpoint

open Reaction

/-! ## Being let in -/

theorem admission_iff {m : Moment} {present : Bool} :
    m.admission = some present ↔ m.deed = .welcome present := by
  unfold Moment.admission
  split
  · rename_i other deed; simp [deed]
  · rename_i other; exact ⟨nofun, fun welcomes => absurd welcomes (other present)⟩

theorem welcomed_iff {past : List Moment} : Welcomed past ↔ admissions past ≠ [] := by
  constructor
  · rintro ⟨m, hm, present, welcomes⟩ none
    have admitted : present ∈ admissions past := List.mem_filterMap.2 ⟨m, hm, admission_iff.2 welcomes⟩
    rw [none] at admitted
    cases admitted
  · intro some
    obtain ⟨present, admitted⟩ := List.exists_mem_of_ne_nil _ some
    obtain ⟨m, hm, admits⟩ := List.mem_filterMap.1 admitted
    exact ⟨m, hm, present, admission_iff.1 admits⟩

/-- The client is let in if and only if an accept goes through. -/
theorem accepts_iff_welcomed (e : Endpoint) (inputs : List (Instant × Input)) :
    (∃ x ∈ e.log inputs, x.Accepts) ↔ Welcomed (e.moments inputs) := by
  constructor
  · rintro ⟨x, hx, ⟨present, accepts⟩, granted⟩
    have admits : x.admission = some present := by simp only [Entry.admission, accepts, granted]
    have admitted : present ∈ admissions (e.moments inputs) := by
      rw [← log_admissions]; exact List.mem_filterMap.2 ⟨x, hx, admits⟩
    exact welcomed_iff.2 (List.ne_nil_of_mem admitted)
  · rintro ⟨m, hm, present, welcomes⟩
    obtain ⟨x, hx, hm⟩ := List.mem_flatMap.1 hm
    exact ⟨x, hx, accepts_of_welcome hm welcomes⟩

section

variable {policy : Policy} {opened : Instant} {past : List Moment} {e : Endpoint}

/-- While the connection stands, its phase tells whether the client has been let in. -/
theorem course_welcomed (course : Course (start policy opened) past e) (isOpen : e.isClosed = false) :
    Welcomed past ↔ e.session.phase = .connected := by
  constructor
  · intro welcomed
    cases phase : e.session.phase with
    | connected => rfl
    | awaitingConnect => exact absurd ((course_reply course).undecided phase).2.1 (welcomed_iff.1 welcomed)
    | closing => simp [isClosed, Session.isClosing, phase, Phase.rank] at isOpen
    | closed => simp [isClosed, Session.isClosing, phase, Phase.rank] at isOpen
  · intro phase
    exact ((course_chapter course).accepted phase).2.1

/-! ## The will that is kept -/

/-- While the connection stands, the will is that of the CONNECT about which the application was asked. -/
def Kept (past : List Moment) (e : Endpoint) : Prop :=
  e.isClosed = false → ∀ c, .connectRequest c ∈ told past → e.session.will = c.will

theorem Served.same_will {p : Packet} {r : Reaction} (h : Served e p r) :
    r.endpoint.session.will = e.session.will := by
  cases h <;> rfl

theorem Granted.same_will {a : Action} {id : Option PacketId} {r : Reaction} (h : Granted e a id r) :
    r.endpoint.session.will = e.session.will := by
  cases h <;> rfl

theorem kept_next {now : Instant} {d : Deed} {answer : Option Answer} {r : Reaction} (h : Kept past e)
    (chapter : Chapter past e) (move : Move now e d answer r) :
    Kept (past ++ [⟨now, e, d, answer, r⟩]) r.endpoint := by
  intro isOpen c request
  rw [told_snoc, List.mem_append] at request
  have earlier (silent : .connectRequest c ∉ r.events.toList) : e.session.will = c.will :=
    h (move.opened isOpen) c (request.resolve_right silent)
  cases move with
  | ignored | deferred | welcomed | idle | denied => exact earlier (by simp [still])
  | @asked c' phase undecided named =>
    -- Nothing was told before, so the CONNECT is this one.
    rw [chapter.unasked phase undecided] at request
    rcases request with before | now
    · cases before
    · cases List.mem_singleton.1 now; rfl
  | served phase fits =>
    exact fits.same_will.trans (earlier fun told => by cases fits.data _ told)
  | granted phase fits =>
    exact fits.same_will.trans (earlier (by simp [fits.same_stage.2.2]))
  | refused | ended => cases isOpen

theorem course_kept (course : Course (start policy opened) past e) : Kept past e := by
  induction course with
  | start => exact fun _ c request => by cases request
  | next before move ih => exact kept_next ih (course_chapter before) move

theorem Move.request {now : Instant} {d : Deed} {answer : Option Answer} {r : Reaction} {c : Connect}
    (move : Move now e d answer r) (told : .connectRequest c ∈ r.events.toList) (chapter : Chapter past e) :
    d = .input (.packet (.connect c)) ∧ Endpoint.told past = [] := by
  cases move with
  | asked phase undecided =>
    cases List.mem_singleton.1 told
    exact ⟨rfl, chapter.unasked phase undecided⟩
  | served phase fits => cases fits.data _ told
  | granted phase fits => simp [fits.same_stage.2.2] at told
  | ignored | deferred | welcomed | idle | denied | refused | ended => simp [still] at told

/-! ## The end -/

/-- What holds when a connection ends in a moment. -/
structure Closing (m : Moment) (reason : CloseReason) (will : Option Will) : Prop where
  opened : m.before.isClosed = false
  only : m.events = [.closed reason will]
  unadmitted : m.admission = none
  leave : reason = .graceful ↔ m.deed = .input (.packet .disconnect) ∧ m.before.session.phase = .connected
  released : will = if m.before.session.phase = .connected ∧ reason ≠ .graceful
    then m.before.session.will else none
  early : (reason = .timeout ∨ ∃ code, reason = .rejected code) → m.before.session.phase ≠ .connected

theorem Ends.leave {now : Instant} {input : Input} {reason : CloseReason} (h : Ends now e input reason) :
    reason = .graceful ↔ input = .packet .disconnect ∧ e.session.phase = .connected := by
  constructor
  · rintro rfl
    cases h with
    | disconnect phase => exact ⟨rfl, phase⟩
  · rintro ⟨rfl, phase⟩
    cases h with
    | early awaiting => rw [phase] at awaiting; cases awaiting
    | violation _ broken =>
      cases broken with
      | unexpected kind => simp [Packet.kind] at kind
    | disconnect => rfl

theorem Ends.unaccepted {now : Instant} {input : Input} {reason : CloseReason} (h : Ends now e input reason)
    (soon : reason = .timeout ∨ ∃ code, reason = .rejected code) : e.session.phase ≠ .connected := by
  rcases soon with rfl | ⟨code, rfl⟩
  · cases h with
    | noConnect phase => rw [phase]; nofun
  · cases h

theorem releasedWill_eq (reason : CloseReason) (e : Endpoint) :
    e.releasedWill reason =
      if e.session.phase = .connected ∧ reason ≠ .graceful then e.session.will else none := by
  unfold releasedWill Session.isConnected
  cases e.session.phase <;> cases reason <;> rfl

theorem Refuses.same_phase {now : Instant} {e' : Endpoint} {input : Input} {answer : Option Answer}
    {code : ConnectCode} (h : Refuses now e input answer code e') :
    e'.session.phase = e.session.phase := by
  cases h <;> rfl

/-- **How a connection ends.** -/
theorem course_closing {m : Moment} {reason : CloseReason} {will : Option Will}
    (course : Course (start policy opened) past m.before)
    (move : Move m.time m.before m.deed m.answer m.reaction) (told : .closed reason will ∈ m.events) :
    Closing m reason will := by
  obtain ⟨time, before, deed, answer, r⟩ := m
  simp only [Moment.events] at course move told
  cases move with
  | ignored | deferred | welcomed | idle | denied => simp [still] at told
  | asked => simp at told
  | served phase fits => cases fits.data _ told
  | granted phase fits => simp [fits.same_stage.2.2] at told
  | @ended input reason' isOpen ends =>
    cases List.mem_singleton.1 told
    refine ⟨isOpen, rfl, rfl, ?_, releasedWill_eq _ _, ends.unaccepted⟩
    simpa using ends.leave
  | @refused input answer code e' isOpen refuses =>
    cases List.mem_singleton.1 told
    have awaiting := refuses.awaiting (course_chapter course) isOpen
    have apart : before.session.phase ≠ .connected := by
      intro phase
      rw [awaiting] at phase
      cases phase
    refine ⟨isOpen, rfl, rfl, ?_, ?_, fun _ => apart⟩
    · constructor
      · intro graceful
        cases graceful
      · intro leaves
        exact absurd leaves.2 apart
    · rw [releasedWill_eq, if_neg fun h => apart (refuses.same_phase.symm.trans h.1),
        if_neg fun h => apart h.1]

theorem over_since {reason : CloseReason} {will : Option Will}
    (course : Course (start policy opened) past e) (ended : .closed reason will ∈ told past) :
    e.isClosed = true := by
  have positive : 0 < ends (told past) := List.countP_pos_iff.2 ⟨_, ended, rfl⟩
  rw [(course_chapter course).ends_told] at positive
  cases gone : e.isClosed with
  | true => rfl
  | false => rw [gone] at positive; exact absurd positive (Nat.lt_irrefl 0)

/-- After the end nothing is told and nobody is let in. -/
theorem quiet_since {reason : CloseReason} {will : Option Will} {later : List Moment}
    (course : Course (start policy opened) (past ++ later) e) (ended : .closed reason will ∈ told past) :
    ∀ m ∈ later, m.events = [] ∧ m.admission = none := by
  intro m hm
  obtain ⟨first, last, rfl⟩ := List.append_of_mem hm
  rw [← List.append_assoc] at course
  obtain ⟨before, move⟩ := course_split course
  have still_ended : .closed reason will ∈ told (past ++ first) := by
    rw [told, List.flatMap_append]
    exact List.mem_append_left _ ended
  obtain ⟨input, deed, -, silent⟩ := move.of_closed (over_since before still_ended)
  exact ⟨by rw [Moment.events, silent]; rfl, by rw [Moment.admission, deed]⟩

/-- A past in which a connection has ended, seen from the moment of the end. -/
theorem course_ended {reason : CloseReason} {will : Option Will}
    (course : Course (start policy opened) past e) (ended : .closed reason will ∈ told past) :
    ∃ earlier m later, past = earlier ++ m :: later ∧ Course (start policy opened) earlier m.before ∧
      Closing m reason will ∧ told later = [] ∧ admissions later = [] := by
  obtain ⟨m, hm, here⟩ := List.mem_flatMap.1 ended
  obtain ⟨earlier, later, rfl⟩ := List.append_of_mem hm
  obtain ⟨before, move⟩ := course_split course
  have quiet : ∀ m ∈ later, m.events = [] ∧ m.admission = none := by
    rw [← List.singleton_append, ← List.append_assoc] at course
    exact quiet_since course (by rw [told_snoc]; exact List.mem_append_right _ here)
  exact ⟨earlier, m, later, rfl, before, course_closing before move here,
    List.flatMap_eq_nil_iff.2 fun m hm => (quiet m hm).1,
    List.filterMap_eq_nil_iff.2 fun m hm => (quiet m hm).2⟩

/-- The application is asked about a CONNECT in the entry in which that comes. -/
theorem entry_request {x : Entry} {c : Connect} (course : Course (start policy opened) past x.before)
    (request : .connectRequest c ∈ x.events) : x.input = .packet (.connect c) := by
  rw [entry_events] at request
  obtain ⟨m, hm, told⟩ := List.mem_flatMap.1 request
  obtain ⟨first, last, split⟩ := List.append_of_mem hm
  have whole := course_entry x course
  rw [split, ← List.append_assoc] at whole
  obtain ⟨before, move⟩ := course_split whole
  obtain ⟨deed, nothing⟩ := move.request told (course_chapter before)
  rcases possible_or_accept x.before x.input with single | ⟨present, accepts, able⟩
  · rw [moments_single single, List.mem_singleton] at hm
    rw [hm] at deed
    exact Deed.input.inj deed
  · -- The application has been asked about the CONNECT that is accepted here.
    obtain ⟨isOpen, due, held, asked⟩ := canAccept_iff.1 able
    obtain ⟨c', asked'⟩ := (course_chapter course).asked isOpen asked
    rw [Endpoint.told, List.flatMap_append, ← Endpoint.told, asked'] at nothing
    cases nothing

/-- The CONNECTs about which the application is asked in a run, in its log and in its moments. -/
theorem log_request {inputs : List (Instant × Input)} {c : Connect} :
    (∃ x ∈ (start policy opened).log inputs, x.input = .packet (.connect c) ∧ .connectRequest c ∈ x.events) ↔
      .connectRequest c ∈ told ((start policy opened).moments inputs) := by
  rw [← moments_events, log_events, List.mem_flatMap]
  constructor
  · rintro ⟨x, hx, -, request⟩
    exact ⟨x, hx, request⟩
  · rintro ⟨x, hx, request⟩
    obtain ⟨earlier, later, split⟩ := List.append_of_mem hx
    obtain ⟨first, -, before⟩ := log_split split
    have course := course_moments (start policy opened) first
    rw [← before] at course
    exact ⟨x, hx, entry_request course request, request⟩

/-! ## A run that has ended -/

variable {inputs : List (Instant × Input)} {earlier later : List Moment} {m : Moment} {reason : CloseReason}
  {will : Option Will}

/-- An accept has gone through if and only if the client is there when the end comes. -/
theorem accepts_iff_connected (split : (start policy opened).moments inputs = earlier ++ m :: later)
    (before : Course (start policy opened) earlier m.before) (closing : Closing m reason will)
    (nobody : admissions later = []) :
    (∃ x ∈ (start policy opened).log inputs, x.Accepts) ↔ m.before.session.phase = .connected := by
  have same : admissions (earlier ++ m :: later) = admissions earlier := by
    rw [admissions, List.filterMap_append, List.filterMap_cons_none closing.unadmitted, ← admissions,
      ← admissions, nobody, List.append_nil]
  rw [accepts_iff_welcomed, ← course_welcomed before closing.opened, split, welcomed_iff, welcomed_iff, same]

/-- The application is asked about no CONNECT from the end on. -/
theorem request_iff_told (split : (start policy opened).moments inputs = earlier ++ m :: later)
    (closing : Closing m reason will) (silent : told later = []) (c : Connect) :
    (∃ x ∈ (start policy opened).log inputs, x.input = .packet (.connect c) ∧ .connectRequest c ∈ x.events) ↔
      .connectRequest c ∈ told earlier := by
  rw [log_request, split, told, List.flatMap_append, List.flatMap_cons, closing.only, ← told, ← told, silent]
  simp

/-- The will that is released is that of the CONNECT, of a client that is there and does not leave. -/
theorem released_iff (before : Course (start policy opened) earlier m.before) (closing : Closing m reason will)
    (w : Will) :
    will = some w ↔ m.before.session.phase = .connected ∧
      (∃ c, .connectRequest c ∈ told earlier ∧ c.will = some w) ∧ reason ≠ .graceful := by
  rw [closing.released]
  constructor
  · intro released
    split at released
    · rename_i vanished
      obtain ⟨-, -, c, data, -, talk⟩ := (course_chapter before).accepted vanished.1
      have request : .connectRequest c ∈ told earlier := by rw [talk]; exact List.mem_cons_self
      have same := course_kept before closing.opened c request
      exact ⟨vanished.1, ⟨c, request, same.symm.trans released⟩, vanished.2⟩
    · cases released
  · rintro ⟨phase, ⟨c, request, named⟩, vanished⟩
    rw [if_pos ⟨phase, vanished⟩, course_kept before closing.opened c request]
    exact named

end

/-- **When the will is released.** A connection has ended, with a reason and maybe a will. It is a client's
will if and only if an accept has gone through, the CONNECT about which the application was asked names this
will, and the client has not taken its leave. The end is told in one moment; it is a leave if and only if
DISCONNECT is dealt with there and the client has been let in, be it at once or after it was held back. No
will comes of a connection that no accept was granted for, or that has ended because CONNECT did not come in
time or was refused. And whatever comes later, nothing more is told. -/
theorem run_will {policy : Policy} {opened : Instant} {inputs : List (Instant × Input)} {reason : CloseReason}
    {will : Option Will} (ended : .closed reason will ∈ ((start policy opened).run inputs).events.toList) :
    let e := start policy opened
    (∀ w, will = some w ↔
      (∃ x ∈ e.log inputs, x.Accepts) ∧
      (∃ c, (∃ x ∈ e.log inputs, x.input = .packet (.connect c) ∧ .connectRequest c ∈ x.events) ∧
        c.will = some w) ∧
      reason ≠ .graceful) ∧
    (∃ earlier m later, e.moments inputs = earlier ++ m :: later ∧
      (∀ event ∈ told earlier, event.isEnd = false) ∧ m.events = [.closed reason will] ∧ told later = [] ∧
      (reason = .graceful ↔
        m.deed = .input (.packet .disconnect) ∧ m.before.session.phase = .connected)) ∧
    ((∀ x ∈ e.log inputs, ¬ x.Accepts) ∨ reason = .timeout ∨ (∃ code, reason = .rejected code) →
      will = none) ∧
    ∀ more, (e.run (inputs ++ more)).events = (e.run inputs).events := by
  intro e
  have whole := course_moments e inputs
  rw [moments_events] at ended
  have gone : (e.run inputs).endpoint.isClosed = true := over_since whole ended
  obtain ⟨earlier, m, later, split, before, closing, silent, nobody⟩ := course_ended whole ended
  have unfinished : ∀ event ∈ told earlier, event.isEnd = false := by
    have none := (course_chapter before).ends_told
    rw [closing.opened] at none
    intro event he
    exact Bool.eq_false_iff.2 (List.countP_eq_zero.1 none event he)
  have accepted := accepts_iff_connected split before closing nobody
  have requested (c : Connect) : (∃ x ∈ e.log inputs, x.input = .packet (.connect c) ∧
      .connectRequest c ∈ x.events) ↔ .connectRequest c ∈ told earlier :=
    request_iff_told split closing silent c
  refine ⟨fun w => ?_, ⟨earlier, m, later, split, unfinished, closing.only, silent, closing.leave⟩, ?_, ?_⟩
  · rw [accepted, released_iff before closing]
    simp only [requested]
  · intro unaccepted
    have apart : m.before.session.phase ≠ .connected := by
      rcases unaccepted with nobody | soon
      · intro phase
        obtain ⟨x, hx, accepts⟩ := accepted.2 phase
        exact nobody x hx accepts
      · exact closing.early soon
    rw [closing.released, if_neg fun h => apart h.1]
  · intro more
    rw [run_append, andThen, run_over more gone]
    simp [still]

/-- A client with a will. -/
def mortal : Connect := ⟨.v311, "c", true, 0, none, none, some ⟨"t", [1], .atMostOnce, false⟩⟩

/-- It is let in and vanishes. -/
def vanished : List (Instant × Input) :=
  [(0, .packet (.connect mortal)), (1, .action (.accept false)), (2, .transportClosed)]

theorem vanished_will :
    .closed .transportClosed mortal.will ∈ ((start ⟨none, none, true⟩ 0).run vanished).events.toList ∧
      (∃ x ∈ (start ⟨none, none, true⟩ 0).log vanished, x.Accepts) ∧
      ∀ more, ((start ⟨none, none, true⟩ 0).run (vanished ++ more)).events =
        ((start ⟨none, none, true⟩ 0).run vanished).events := by
  have ended : .closed .transportClosed mortal.will ∈
      ((start ⟨none, none, true⟩ 0).run vanished).events.toList := by decide
  obtain ⟨released, -, -, once⟩ := run_will ended
  exact ⟨ended, ((released _).1 rfl).1, once⟩

/-- A leave that was held back until the accept is a leave. -/
example :
    ((start ⟨none, none, true⟩ 0).run
      [(0, .packet (.connect mortal)), (1, .packet .disconnect), (2, .action (.accept false))]).events.toList =
        [.connectRequest mortal, .closed .graceful none] := by
  decide

end MqttLink.Endpoint
