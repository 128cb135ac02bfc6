import MqttLink.Proofs.Endpoint.History
/-!
# The story of a connection

What the application is told about one connection, from beginning to end. It is asked about the client
first, hears of its doings only once it has let it in, and is told of the end last, and only once.

The invariant is the `Chapter`: which events have been told, for each stage that a connection can be
in. `run_story` reads the grammar off it.
-/

namespace MqttLink

namespace Event

/-- Whether the end of the connection is told. -/
def isEnd : Event → Bool
  | closed _ _ => true
  | _ => false

/-- Whether a doing of the client is told. -/
def isData : Event → Bool
  | connectRequest _ | closed _ _ => false
  | _ => true

theorem isEnd_data {event : Event} (data : event.isData = true) : event.isEnd = false := by
  cases event <;> first | rfl | cases data

end Event

namespace Endpoint

open Reaction

/-- What the application can be told about one connection. -/
inductive Story : List Event → Prop where
  | nothing : Story []
  | stillborn (reason : CloseReason) (will : Option Will) : Story [.closed reason will]
  | underway (c : Connect) (data : List Event) (doings : ∀ event ∈ data, event.isData = true) :
    Story (.connectRequest c :: data)
  | complete (c : Connect) (data : List Event) (doings : ∀ event ∈ data, event.isData = true)
    (reason : CloseReason) (will : Option Will) :
    Story (.connectRequest c :: data ++ [.closed reason will])

/-- How many ends are told. -/
def ends (events : List Event) : Nat := events.countP Event.isEnd

theorem ends_append (events more : List Event) : ends (events ++ more) = ends events + ends more :=
  List.countP_append

theorem ends_data {data : List Event} (doings : ∀ event ∈ data, event.isData = true) : ends data = 0 := by
  rw [ends, List.countP_eq_zero]
  intro event he
  rw [Event.isEnd_data (doings event he)]
  exact Bool.false_ne_true

/-! ## Chapters -/

/-- Whether a client has been let in. -/
def Welcomed (past : List Moment) : Prop := ∃ m ∈ past, ∃ present, m.deed = .welcome present

/-- What has been told so far, by the stage of the connection. -/
inductive Chapter (past : List Moment) (e : Endpoint) : Prop where
  | waiting {due : Option Instant} (phase : e.session.phase = .awaitingConnect)
    (unasked : e.handshake = .waiting due) (silent : told past = [])
  | deciding {due : Option Instant} {held : Array Packet} {c : Connect}
    (phase : e.session.phase = .awaitingConnect) (asked : e.handshake = .deciding due held)
    (request : told past = [.connectRequest c])
  | connected {c : Connect} {data : List Event} (phase : e.session.phase = .connected)
    (decided : e.handshake = .over) (welcomed : Welcomed past)
    (doings : ∀ event ∈ data, event.isData = true) (talk : told past = .connectRequest c :: data)
  | closed (gone : e.isClosed = true) (whole : Story (told past)) (once : ends (told past) = 1)

namespace Chapter

variable {past : List Moment} {e : Endpoint}

theorem story (h : Chapter past e) : Story (told past) := by
  cases h with
  | waiting _ _ silent => rw [silent]; exact .nothing
  | deciding _ _ request => rw [request]; exact .underway _ [] (List.forall_mem_nil _)
  | connected _ _ _ doings talk => rw [talk]; exact .underway _ _ doings
  | closed _ whole _ => exact whole

theorem ends_told (h : Chapter past e) : ends (told past) = if e.isClosed then 1 else 0 := by
  cases h with
  | waiting phase _ silent => rw [silent, isClosed_awaiting phase]; rfl
  | deciding phase _ request => rw [request, isClosed_awaiting phase]; rfl
  | connected phase _ _ doings talk =>
    rw [talk, isClosed_connected phase, ← List.singleton_append, ends_append, ends_data doings]
    rfl
  | closed gone _ once => rw [once, gone]; rfl

theorem unasked (h : Chapter past e) (phase : e.session.phase = .awaitingConnect)
    (undecided : e.isAwaitingDecision = false) : told past = [] := by
  cases h with
  | waiting _ _ silent => exact silent
  | deciding _ asked _ => simp [isAwaitingDecision, asked] at undecided
  | connected p _ _ _ _ => rw [p] at phase; cases phase
  | closed gone _ _ => rw [isClosed_awaiting phase] at gone; cases gone

theorem asked (h : Chapter past e) {due : Option Instant} {held : Array Packet}
    (opened : e.isClosed = false) (asked : e.handshake = .deciding due held) :
    ∃ c, told past = [.connectRequest c] := by
  cases h with
  | waiting _ unasked _ => rw [unasked] at asked; cases asked
  | deciding _ _ request => exact ⟨_, request⟩
  | connected _ decided _ _ _ => rw [decided] at asked; cases asked
  | closed gone _ _ => rw [gone] at opened; cases opened

theorem accepted (h : Chapter past e) (phase : e.session.phase = .connected) :
    e.handshake = .over ∧ Welcomed past ∧
      ∃ c data, (∀ event ∈ data, event.isData = true) ∧ told past = .connectRequest c :: data := by
  cases h with
  | waiting p _ _ => rw [p] at phase; cases phase
  | deciding p _ _ => rw [p] at phase; cases phase
  | connected _ decided welcomed doings talk => exact ⟨decided, welcomed, _, _, doings, talk⟩
  | closed gone _ _ => rw [isClosed_connected phase] at gone; cases gone

/-- A moment at which nothing is told, and after which the connection is at the same stage. -/
theorem quiet {e' : Endpoint} {m : Moment} (h : Chapter past e) (silent : m.events = [])
    (phase : e'.session.phase = e.session.phase) (handshake : e'.handshake = e.handshake) :
    Chapter (past ++ [m]) e' := by
  have same : told (past ++ [m]) = told past := by rw [told_snoc, silent, List.append_nil]
  have gone : e'.isClosed = e.isClosed := by simp only [isClosed, Session.isClosing, phase]
  cases h with
  | waiting p u s => exact .waiting (phase.trans p) (handshake.trans u) (same.trans s)
  | deciding p a r => exact .deciding (phase.trans p) (handshake.trans a) (same.trans r)
  | connected p d w doings talk =>
    obtain ⟨m', hm', hw⟩ := w
    exact .connected (phase.trans p) (handshake.trans d) ⟨m', List.mem_append_left _ hm', hw⟩ doings
      (same.trans talk)
  | closed o w n => exact .closed (gone.trans o) (same ▸ w) (same ▸ n)

/-- The moment at which an open connection ends. -/
theorem finish {e' : Endpoint} {m : Moment} {reason : CloseReason} {will : Option Will}
    (h : Chapter past e) (opened : e.isClosed = false) (last : m.events = [.closed reason will])
    (gone : e'.isClosed = true) : Chapter (past ++ [m]) e' := by
  have all : told (past ++ [m]) = told past ++ [.closed reason will] := by rw [told_snoc, last]
  have once : ends (told (past ++ [m])) = 1 := by
    rw [all, ends_append, h.ends_told, opened]; rfl
  refine .closed gone ?_ once
  rw [all]
  cases h with
  | waiting _ _ silent => rw [silent]; exact .stillborn reason will
  | deciding _ _ request => rw [request]; exact .complete _ [] (List.forall_mem_nil _) reason will
  | connected _ _ _ doings talk => rw [talk]; exact .complete _ _ doings reason will
  | closed o _ _ => rw [o] at opened; cases opened

end Chapter

/-! ## One move -/

theorem isClosed_ended (e : Endpoint) : e.ended.isClosed = true := rfl

theorem Served.same_stage {e : Endpoint} {p : Packet} {r : Reaction} (h : Served e p r) :
    r.endpoint.session.phase = e.session.phase ∧ r.endpoint.handshake = e.handshake := by
  cases h <;> exact ⟨rfl, rfl⟩

theorem Served.data {e : Endpoint} {p : Packet} {r : Reaction} (h : Served e p r) :
    ∀ event ∈ r.events.toList, event.isData = true := by
  cases h <;> simp [Event.isData]

theorem Granted.same_stage {e : Endpoint} {a : Action} {id : Option PacketId} {r : Reaction}
    (h : Granted e a id r) :
    r.endpoint.session.phase = e.session.phase ∧ r.endpoint.handshake = e.handshake ∧ r.events = #[] := by
  cases h <;> exact ⟨rfl, rfl, rfl⟩

/-- Whatever an endpoint does, it does while it is open, unless it only says that it is over. -/
theorem Move.open_or_late {now : Instant} {e : Endpoint} {d : Deed} {answer : Option Answer}
    {r : Reaction} (h : Move now e d answer r) :
    e.isClosed = false ∨ ∃ input, d = .input input ∧ answer = tooLate input ∧ r = still e := by
  cases h with
  | ignored _ => exact .inr ⟨_, rfl, rfl, rfl⟩
  | asked phase _ _ | deferred phase _ => exact .inl (isClosed_awaiting phase)
  | served phase _ | granted phase _ => exact .inl (isClosed_connected phase)
  | welcomed able => exact .inl (canAccept_iff.1 able).1
  | idle opened | denied opened _ | refused opened _ | ended opened _ => exact .inl opened

theorem Move.of_closed {now : Instant} {e : Endpoint} {d : Deed} {answer : Option Answer} {r : Reaction}
    (h : Move now e d answer r) (gone : e.isClosed = true) :
    ∃ input, d = .input input ∧ answer = tooLate input ∧ r = still e :=
  h.open_or_late.resolve_left (by rw [gone]; exact Bool.noConfusion)

/-- No move leads back into an open connection. -/
theorem Move.opened {now : Instant} {e : Endpoint} {d : Deed} {answer : Option Answer} {r : Reaction}
    (h : Move now e d answer r) (opened : r.endpoint.isClosed = false) : e.isClosed = false := by
  cases gone : e.isClosed with
  | false => rfl
  | true =>
    obtain ⟨_, -, -, rfl⟩ := h.of_closed gone
    exact gone.symm.trans opened

/-- No move changes how an endpoint is to behave. -/
theorem Move.policy {now : Instant} {e : Endpoint} {d : Deed} {answer : Option Answer} {r : Reaction}
    (h : Move now e d answer r) : r.endpoint.policy = e.policy := by
  cases h with
  | served _ fits => cases fits <;> rfl
  | granted _ fits => cases fits <;> rfl
  | refused _ refuses => cases refuses <;> rfl
  | ignored | asked | deferred | welcomed | idle | denied | ended => rfl

/-- Doings of the client are told only while it is let in. -/
theorem Move.data_connected {now : Instant} {e : Endpoint} {d : Deed} {answer : Option Answer}
    {r : Reaction} (h : Move now e d answer r) {event : Event} (told : event ∈ r.events.toList)
    (data : event.isData = true) : e.session.phase = .connected := by
  cases h with
  | served phase _ => exact phase
  | granted phase _ => exact phase
  | ignored | deferred | welcomed | idle | denied => simp [still] at told
  | asked | refused | ended =>
    simp only [List.mem_singleton] at told
    subst told
    cases data

theorem chapter_next {past : List Moment} {e : Endpoint} {now : Instant} {d : Deed}
    {answer : Option Answer} {r : Reaction} (h : Chapter past e) (move : Move now e d answer r) :
    Chapter (past ++ [⟨now, e, d, answer, r⟩]) r.endpoint := by
  cases move with
  | ignored | idle | denied => exact h.quiet rfl rfl rfl
  | asked phase undecided named =>
    exact .deciding phase rfl (by rw [told_snoc, h.unasked phase undecided]; rfl)
  | deferred phase asked =>
    obtain ⟨c, request⟩ := h.asked (isClosed_awaiting phase) asked
    exact .deciding phase rfl (by rw [told_snoc, request]; rfl)
  | welcomed able =>
    obtain ⟨opened, due, held, asked⟩ := canAccept_iff.1 able
    obtain ⟨c, request⟩ := h.asked opened asked
    exact .connected rfl rfl ⟨_, List.mem_append_right _ List.mem_cons_self, _, rfl⟩
      (List.forall_mem_nil _) (by rw [told_snoc, request]; rfl)
  | served phase fits =>
    obtain ⟨decided, ⟨m, hm, hw⟩, c, data, doings, talk⟩ := h.accepted phase
    refine .connected (fits.same_stage.1.trans phase) (fits.same_stage.2.trans decided)
      ⟨m, List.mem_append_left _ hm, hw⟩ ?_ (by rw [told_snoc, talk]; rfl)
    intro event he
    rcases List.mem_append.1 he with he | he
    · exact doings event he
    · exact fits.data event he
  | granted phase fits =>
    obtain ⟨samePhase, sameHandshake, silent⟩ := fits.same_stage
    exact h.quiet (by rw [Moment.events, silent]) samePhase sameHandshake
  | refused opened refuses => exact h.finish opened rfl (isClosed_ended _)
  | ended opened ends => exact h.finish opened rfl (isClosed_ended _)

/-! ## Whole runs -/

theorem course_chapter {policy : Policy} {opened : Instant} {past : List Moment} {e : Endpoint}
    (h : Course (start policy opened) past e) : Chapter past e := by
  induction h with
  | start => exact .waiting rfl rfl rfl
  | next _ move ih => exact chapter_next ih move

theorem course_policy {policy : Policy} {opened : Instant} {past : List Moment} {e : Endpoint}
    (h : Course (start policy opened) past e) : e.policy = policy := by
  induction h with
  | start => rfl
  | next _ move ih => exact move.policy.trans ih

/-- An endpoint that is over reacts to nothing any more. -/
theorem step_over {e : Endpoint} (now : Instant) (input : Input) (gone : e.isClosed = true) :
    e.step now input = (tooLate input, still e) := by
  have possible : Possible e (.input input) := by
    cases input with
    | action a => cases a <;> simp [Possible, canAccept, gone]
    | _ => trivial
  obtain ⟨_, same, hanswer, hr⟩ := (perform_move now possible).of_closed gone
  cases same
  exact Prod.ext hanswer hr

/-- An endpoint that is over stays as it is. -/
theorem run_over {e : Endpoint} (inputs : List (Instant × Input)) (gone : e.isClosed = true) :
    e.run inputs = still e := by
  induction inputs with
  | nil => rfl
  | cons x rest ih => rw [run_cons, step_over _ _ gone, still_andThen, ih]

/-- A doing of the client is told in an entry only if the client has been let in by then. -/
theorem accepts_of_data {policy : Policy} {opened : Instant} {inputs : List (Instant × Input)}
    {x : Entry} (hx : x.before = ((start policy opened).run inputs).endpoint) {event : Event}
    (htold : event ∈ x.events) (data : event.isData = true) :
    ∃ y ∈ (start policy opened).log inputs ++ [x], y.Accepts := by
  have course := course_moments (start policy opened) inputs
  rw [← hx] at course
  rw [entry_events, told, List.mem_flatMap] at htold
  obtain ⟨m, hm, he⟩ := htold
  obtain ⟨earlier, later, hsplit⟩ := List.append_of_mem hm
  have whole := course_entry x course
  rw [hsplit, ← List.append_assoc] at whole
  obtain ⟨before, move⟩ := course_split whole
  have phase := move.data_connected he data
  obtain ⟨-, ⟨w, hw, present, welcomes⟩, -⟩ := (course_chapter before).accepted phase
  rcases List.mem_append.1 hw with hw | hw
  · obtain ⟨y, hy, hwy⟩ := List.mem_flatMap.1 hw
    exact ⟨y, List.mem_append_left _ hy, accepts_of_welcome hwy welcomes⟩
  · refine ⟨x, List.mem_append_right _ List.mem_cons_self, accepts_of_welcome (m := w) ?_ welcomes⟩
    rw [hsplit]
    exact List.mem_append_left _ hw

/-- **The application is told one story.** Whatever happens to an endpoint, in whatever order: the
events so far are a story; the end has been told once if the connection is over, and not at all
otherwise. Whatever happens next, a doing of the client is told only if an accept has gone through by
then; and after the end nothing is told or sent or changed, and every request comes too late. -/
theorem run_story (policy : Policy) (opened : Instant) (inputs : List (Instant × Input)) :
    let r := (start policy opened).run inputs
    Story r.events.toList ∧
    ends r.events.toList = (if r.endpoint.isClosed then 1 else 0) ∧
    ∀ (now : Instant) (input : Input),
      (∀ event ∈ (r.endpoint.step now input).2.events.toList, event.isData = true →
        ∃ x ∈ (start policy opened).log (inputs ++ [(now, input)]), x.Accepts) ∧
      ((∃ event ∈ r.events.toList, event.isEnd = true) →
        r.endpoint.step now input = (tooLate input, still r.endpoint)) := by
  intro r
  have chapter : Chapter _ r.endpoint := course_chapter (course_moments (start policy opened) inputs)
  have same : r.events.toList = told ((start policy opened).moments inputs) := moments_events _ _
  refine ⟨?_, ?_, fun now input => ⟨?_, ?_⟩⟩
  · rw [same]; exact chapter.story
  · rw [same]; exact chapter.ends_told
  · intro event he data
    rw [log_append]
    exact accepts_of_data (x := ⟨now, input, r.endpoint⟩) rfl he data
  · intro ended
    refine step_over now input ?_
    have positive : 0 < ends r.events.toList := List.countP_pos_iff.2 ended
    rw [same, chapter.ends_told] at positive
    split at positive
    · assumption
    · exact absurd positive (Nat.lt_irrefl 0)

end Endpoint
end MqttLink
