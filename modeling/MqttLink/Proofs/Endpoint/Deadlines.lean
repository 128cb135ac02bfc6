import MqttLink.Proofs.Endpoint.Connack
/-!
# Deadlines

At any time there is at most one deadline: for CONNECT, for the decision about it, or for the next packet of
the client. `Outlook` says which one counts, from what has happened so far, and what comes of it once it has
passed. `run_deadline` says that the deadline an endpoint names is that one, and that `timeout` does what
comes of it from that instant on and nothing before it.

The watch over an accepted client is the `Schedule`'s: it has never expired, and it counts from the last
moment at which the client was let in or heard of.
-/

namespace MqttLink.Endpoint

open Reaction

/-- Whether the client is let in here, or heard of. -/
def Moment.stirs (m : Moment) : Bool :=
  match m.deed with
  | .welcome _ | .input (.packet _) => true
  | _ => false

/-- When the client was last let in or heard of. -/
def lastHeard (past : List Moment) : Option Instant := (past.filter Moment.stirs).getLast?.map Moment.time

theorem lastHeard_stirs {past : List Moment} {m : Moment} (stirs : m.stirs = true) :
    lastHeard (past ++ [m]) = some m.time := by
  simp [lastHeard, stirs]

theorem lastHeard_quiet {past : List Moment} {m : Moment} (quiet : m.stirs = false) :
    lastHeard (past ++ [m]) = lastHeard past := by
  simp [lastHeard, quiet]

/-- Which deadline counts, and what comes of it once it has passed. -/
inductive Outlook (policy : Policy) (opened : Instant) (past : List Moment) (e : Endpoint) :
    Option Instant → Reaction → Prop where
  /-- The client has so long for CONNECT, from the beginning. -/
  | unconnected (phase : e.session.phase = .awaitingConnect) (unasked : e.isAwaitingDecision = false)
    (unheard : ∀ m ∈ past, ∀ p, m.deed ≠ .input (.packet p)) :
    Outlook policy opened past e (policy.connectTimeout.map (opened + ·))
      ⟨e.ended, #[], #[.closed .timeout none]⟩
  /-- The application has so long for its decision, from the one CONNECT on about which it is asked. -/
  | undecided {m : Moment} {c : Connect} (phase : e.session.phase = .awaitingConnect)
    (asked : e.isAwaitingDecision = true) (among : m ∈ past) (comes : m.deed = .input (.packet (.connect c)))
    (asks : m.events = [.connectRequest c]) (only : told past = [.connectRequest c]) :
    Outlook policy opened past e (policy.acceptTimeout.map (m.time + ·))
      ⟨e.ended, #[.connack false .serverUnavailable], #[.closed (.rejected .serverUnavailable) none]⟩
  /-- An accepted client may be silent for one and a half of its intervals. -/
  | connected {c : Connect} {heard : Instant} (phase : e.session.phase = .connected)
    (welcomed : Welcomed past) (request : .connectRequest c ∈ told past)
    (last : lastHeard past = some heard) :
    Outlook policy opened past e
      (if c.keepAlive = 0 then none else some (heard + 1500 * c.keepAlive.toNat))
      ⟨e.ended, #[], #[.closed .keepAliveExpired e.session.will]⟩
  | ended (gone : e.isClosed = true) : Outlook policy opened past e none (still e)

/-- What comes of a deadline is that an open connection ends. -/
theorem Outlook.ends {policy : Policy} {opened now : Instant} {past : List Moment} {e : Endpoint}
    {deadline : Option Instant} {expiry : Reaction} (h : Outlook policy opened past e deadline expiry)
    (late : isDue deadline now = true) : e.isClosed = false ∧ expiry.endpoint.isClosed = true := by
  cases h with
  | unconnected phase => exact ⟨isClosed_awaiting phase, isClosed_ended e⟩
  | undecided phase => exact ⟨isClosed_awaiting phase, isClosed_ended e⟩
  | connected phase => exact ⟨isClosed_connected phase, isClosed_ended e⟩
  | ended => cases late

/-! ## What `timeout` does -/

theorem poll_isDue (w : KeepAlive.Watch) (now : Instant) : (w.poll now).1 = isDue w.deadline now := by
  unfold KeepAlive.Watch.poll
  cases w.deadline with
  | none => rfl
  | some due => by_cases late : due ≤ now <;> simp [isDue, late]

theorem pollWatch_isDue (s : Session) (now : Instant) : (s.pollWatch now).1 = isDue s.deadline now := by
  unfold Session.pollWatch Session.deadline
  cases s.watch with
  | none => rfl
  | some w => exact poll_isDue w now

section

variable {e : Endpoint} (now : Instant)

theorem timeout_waiting {due : Option Instant} (phase : e.session.phase = .awaitingConnect)
    (waiting : e.handshake = .waiting due) :
    e.step now .timeout =
      (none, if isDue due now then ⟨e.ended, #[], #[.closed .timeout none]⟩ else still e) := by
  have unreleased : e.releasedWill .timeout = none := by simp [releasedWill, Session.isConnected, phase]
  simp only [step, onTimeout, phase, waiting, closeWith_open _ (isClosed_awaiting phase), unreleased]

theorem timeout_deciding {due : Option Instant} {held : Array Packet}
    (phase : e.session.phase = .awaitingConnect) (asked : e.handshake = .deciding due held) :
    e.step now .timeout =
      (none, if isDue due now then
        ⟨e.ended, #[.connack false .serverUnavailable], #[.closed (.rejected .serverUnavailable) none]⟩
      else still e) := by
  have unreleased : e.releasedWill (.rejected .serverUnavailable) = none := by
    simp [releasedWill, Session.isConnected, phase]
  simp only [step, onTimeout, phase, asked, refuse_open _ (isClosed_awaiting phase), unreleased]

/-- Asking the watch leaves no trace in what is left of a closed connection. -/
theorem closeWith_polled (reason : CloseReason) (opened : e.isClosed = false) :
    closeWith reason { e with session := (e.session.pollWatch now).2 } = e.closeWith reason := by
  unfold Session.pollWatch
  split
  · rfl
  · rw [closeWith_open reason opened]
    exact closeWith_open reason opened

theorem timeout_connected (phase : e.session.phase = .connected) :
    e.step now .timeout =
      (none, if isDue e.session.deadline now then
        ⟨e.ended, #[], #[.closed .keepAliveExpired e.session.will]⟩
      else still e) := by
  have released : e.releasedWill .keepAliveExpired = e.session.will := by
    simp [releasedWill, Session.isConnected, phase, CloseReason.isGraceful]
  rw [← pollWatch_isDue]
  simp only [step, onTimeout, phase]
  cases late : (e.session.pollWatch now).1 with
  | true =>
    simp only [if_true]
    have opened := isClosed_connected phase
    rw [closeWith_polled now _ opened, closeWith_open _ opened, released]
  | false => simp only [pollWatch_early late, Bool.false_eq_true, if_false]

end

/-! ## What the deadlines go by -/

theorem Served.watch {e : Endpoint} {p : Packet} {r : Reaction} (h : Served e p r) :
    r.endpoint.session.watch = e.session.watch := by
  cases h <;> rfl

theorem Granted.watch {e : Endpoint} {a : Action} {id : Option PacketId} {r : Reaction}
    (h : Granted e a id r) : r.endpoint.session.watch = e.session.watch := by
  cases h <;> rfl

/-- The application is asked about a CONNECT when it is dealt with. -/
theorem Move.asks {now : Instant} {e : Endpoint} {d : Deed} {answer : Option Answer} {r : Reaction}
    {c : Connect} (move : Move now e d answer r) (told : r.events.toList = [.connectRequest c]) :
    d = .input (.packet (.connect c)) := by
  cases move with
  | asked => cases told; rfl
  | served _ fits => cases fits <;> cases told
  | granted _ fits => rw [fits.same_stage.2.2] at told; cases told
  | ignored | deferred | welcomed | idle | denied | refused | ended => cases told

/-- What each of the deadlines goes by. A watch that has expired belongs to a connection that is over. -/
structure Schedule (policy : Policy) (opened : Instant) (past : List Moment) (e : Endpoint) : Prop where
  waiting : ∀ {due}, e.session.phase = .awaitingConnect → e.handshake = .waiting due →
    due = policy.connectTimeout.map (opened + ·)
  interval : ∀ {due held}, e.session.phase = .awaitingConnect → e.handshake = .deciding due held →
    ∃ c, .connectRequest c ∈ told past ∧ e.session.keepAlive = c.keepAlive
  watch : e.session.phase = .connected →
    ∃ c heard, .connectRequest c ∈ told past ∧ lastHeard past = some heard ∧
      e.session.watch = some ⟨c.keepAlive, heard, false⟩

namespace Schedule

variable {policy : Policy} {opened : Instant} {past : List Moment} {e : Endpoint} {m : Moment}

/-- Once the connection is over there is nothing to be waited for. -/
theorem ended (gone : e.isClosed = true) : Schedule policy opened past e where
  waiting phase := by cases (isClosed_awaiting phase).symm.trans gone
  interval phase := by cases (isClosed_awaiting phase).symm.trans gone
  watch phase := by cases (isClosed_connected phase).symm.trans gone

/-- A moment at which nothing is heard of the client and nothing changes. -/
theorem quiet (h : Schedule policy opened past e) (unstirred : m.stirs = false) :
    Schedule policy opened (past ++ [m]) e where
  waiting := h.waiting
  interval phase asked := by
    obtain ⟨c, request, same⟩ := h.interval phase asked
    exact ⟨c, told_kept m request, same⟩
  watch phase := by
    obtain ⟨c, heard, request, last, watch⟩ := h.watch phase
    exact ⟨c, heard, told_kept m request, (lastHeard_quiet unstirred).trans last, watch⟩

/-- An accepted client is watched. -/
theorem watched {c : Connect} {heard : Instant} (phase : e.session.phase = .connected)
    (request : .connectRequest c ∈ told past) (last : lastHeard past = some heard)
    (watch : e.session.watch = some ⟨c.keepAlive, heard, false⟩) : Schedule policy opened past e where
  waiting phase' := by cases phase.symm.trans phase'
  interval phase' := by cases phase.symm.trans phase'
  watch _ := ⟨c, heard, request, last, watch⟩

end Schedule

theorem schedule_next {policy : Policy} {opened : Instant} {past : List Moment} {e : Endpoint} {now : Instant}
    {d : Deed} {answer : Option Answer} {r : Reaction} (h : Schedule policy opened past e)
    (chapter : Chapter past e) (move : Move now e d answer r) :
    Schedule policy opened (past ++ [⟨now, e, d, answer, r⟩]) r.endpoint := by
  cases move with
  | ignored gone => exact .ended gone
  | idle | denied => exact h.quiet rfl
  | @asked c phase undecided named =>
    refine ⟨fun _ waiting => (nomatch waiting), fun _ _ => ⟨c, ?_, rfl⟩, fun phase' => ?_⟩
    · rw [told_snoc]; exact List.mem_append_right _ List.mem_cons_self
    · cases phase.symm.trans phase'
  | deferred phase asked =>
    refine ⟨fun _ waiting => (nomatch waiting), fun _ _ => ?_, fun phase' => ?_⟩
    · obtain ⟨c, request, same⟩ := h.interval phase asked
      exact ⟨c, told_kept _ request, same⟩
    · cases phase.symm.trans phase'
  | welcomed able =>
    obtain ⟨isOpen, due, held, asked⟩ := canAccept_iff.1 able
    have phase := chapter.awaiting isOpen (by simp [isAwaitingDecision, asked])
    obtain ⟨c, request, same⟩ := h.interval phase asked
    exact .watched rfl (told_kept _ request) (lastHeard_stirs rfl) (by rw [← same]; rfl)
  | served phase fits =>
    obtain ⟨c, heard, request, -, watch⟩ := h.watch phase
    refine .watched (fits.same_stage.1.trans phase) (told_kept _ request) (lastHeard_stirs rfl) ?_
    rw [fits.watch]
    simp only [touched, Session.touch, watch]
    rfl
  | granted phase fits =>
    obtain ⟨c, heard, request, last, watch⟩ := h.watch phase
    exact .watched (fits.same_stage.1.trans phase) (told_kept _ request) ((lastHeard_quiet rfl).trans last)
      (fits.watch.trans watch)
  | refused | ended => exact .ended (isClosed_ended _)

theorem course_schedule {policy : Policy} {opened : Instant} {past : List Moment} {e : Endpoint}
    (h : Course (start policy opened) past e) : Schedule policy opened past e := by
  induction h with
  | start => exact ⟨fun _ waiting => by cases waiting; rfl, fun _ asked => (nomatch asked), nofun⟩
  | next before move ih => exact schedule_next ih (course_chapter before) move

/-! ## Whole runs -/

theorem deadline_over {e : Endpoint} (gone : e.isClosed = true) : e.deadline = none := by
  unfold deadline
  cases phase : e.session.phase with
  | awaitingConnect => cases (isClosed_awaiting phase).symm.trans gone
  | connected => cases (isClosed_connected phase).symm.trans gone
  | closing | closed => rfl

/-- The deadline that an endpoint names is the one that counts, and `timeout` goes by it. -/
theorem course_outlook {policy : Policy} {opened : Instant} {past : List Moment} {e : Endpoint}
    (h : Course (start policy opened) past e) :
    ∃ expiry, Outlook policy opened past e e.deadline expiry ∧
      ∀ now, e.step now .timeout = (none, if isDue e.deadline now then expiry else still e) := by
  have schedule := course_schedule h
  have docket := course_docket h
  cases course_chapter h with
  | waiting phase waiting silent =>
    have unasked : e.isAwaitingDecision = false := by rw [isAwaitingDecision, waiting]
    have named : e.deadline = policy.connectTimeout.map (opened + ·) := by
      rw [← schedule.waiting phase waiting]
      simp only [deadline, phase, waiting]
    rw [named]
    refine ⟨_, .unconnected phase unasked (docket.unheard phase unasked), fun now => ?_⟩
    rw [← schedule.waiting phase waiting]
    exact timeout_waiting now phase waiting
  | deciding phase asked request =>
    obtain ⟨m, hm, c, asks, due, -⟩ := docket.asked phase asked
    have only : told past = [.connectRequest c] := by
      have among : .connectRequest c ∈ told past := List.mem_flatMap.2 ⟨m, hm, by simp [asks]⟩
      rw [request, List.mem_singleton] at among
      rw [request, among]
    have named : e.deadline = policy.acceptTimeout.map (m.time + ·) := by
      rw [← due]
      simp only [deadline, phase, asked]
    obtain ⟨earlier, later, rfl⟩ := List.append_of_mem hm
    have comes := (course_split h).2.asks asks
    rw [named]
    refine ⟨_, .undecided phase (by rw [isAwaitingDecision, asked]) hm comes asks only, fun now => ?_⟩
    rw [← due]
    exact timeout_deciding now phase asked
  | connected phase decided welcomed doings talk =>
    obtain ⟨c, heard, request, last, watch⟩ := schedule.watch phase
    have due : e.session.deadline =
        if c.keepAlive = 0 then none else some (heard + 1500 * c.keepAlive.toNat) := by
      rw [Session.deadline, watch]
      exact KeepAlive.Watch.deadline_running c.keepAlive heard
    have named : e.deadline = e.session.deadline := by simp only [deadline, phase]
    rw [named]
    have outlook : Outlook policy opened past e _ _ := .connected phase welcomed request last
    rw [← due] at outlook
    exact ⟨_, outlook, fun now => timeout_connected now phase⟩
  | closed gone =>
    rw [deadline_over gone]
    exact ⟨_, .ended gone, fun now => step_over now .timeout gone⟩

theorem isDue_iff {deadline : Option Instant} {now : Instant} :
    isDue deadline now = true ↔ ∃ due, deadline = some due ∧ due ≤ now := by
  cases deadline <;> simp [isDue]

/-- **Deadlines are exact.** Whatever happens to an endpoint, the deadline that it names is the one that
counts: for CONNECT from the beginning, for the decision from CONNECT, for the next packet from the last
time that the client was let in or heard of, and none if there is no limit or if the connection is over.
`timeout` ends the connection if and only if that deadline has come, each with its own reason, and
otherwise nothing happens. -/
theorem run_deadline (policy : Policy) (opened : Instant) (inputs : List (Instant × Input)) :
    let e := ((start policy opened).run inputs).endpoint
    (∃ expiry, Outlook policy opened ((start policy opened).moments inputs) e e.deadline expiry ∧
      ∀ now, e.step now .timeout = (none, if isDue e.deadline now then expiry else still e)) ∧
    ∀ now, (e.isClosed = false ∧ (e.step now .timeout).2.endpoint.isClosed = true) ↔
      ∃ due, e.deadline = some due ∧ due ≤ now := by
  intro e
  obtain ⟨expiry, outlook, steps⟩ := course_outlook (course_moments (start policy opened) inputs)
  refine ⟨⟨expiry, outlook, steps⟩, fun now => ?_⟩
  rw [steps now, ← isDue_iff]
  cases late : isDue e.deadline now with
  | false =>
    refine ⟨fun ⟨isOpen, gone⟩ => ?_, nofun⟩
    cases isOpen.symm.trans gone
  | true => exact ⟨fun _ => rfl, fun _ => outlook.ends late⟩

end MqttLink.Endpoint
