import MqttLink.Proofs.Endpoint.Inversion
/-!
# Histories of an endpoint

A run is written down twice. The `log` has one entry for each input, as it meets the endpoint. The
`moments` are finer: an accept that goes through is followed by a moment for each packet that had
been held back, so that every packet is seen when it is dealt with.

`course_moments` says that the moments of any run are a `Course`: each is a move from where the one
before it has led. An invariant that ties the past to the present is proved along a course, with one
case for each move. `log_events` and `entry_events` say that nothing is told outside a moment, and
`log_packets` and `entry_packets` that nothing is said to the client.
-/

namespace MqttLink.Endpoint

open Reaction

/-! ## Input by input -/

/-- An input at its time, and the endpoint that it meets. -/
structure Entry where
  time : Instant
  input : Input
  before : Endpoint

namespace Entry

def answer (x : Entry) : Option Answer := (x.before.step x.time x.input).1

def reaction (x : Entry) : Reaction := (x.before.step x.time x.input).2

def events (x : Entry) : List Event := x.reaction.events.toList

def packets (x : Entry) : List Packet := x.reaction.packets.toList

/-- Whether this is an accept that goes through. -/
def Accepts (x : Entry) : Prop :=
  (∃ present, x.input = .action (.accept present)) ∧ x.answer = some (.ok none)

end Entry

/-- The inputs of a run, each with the endpoint that it meets. -/
def log (e : Endpoint) : List (Instant × Input) → List Entry
  | [] => []
  | (now, input) :: rest => ⟨now, input, e⟩ :: log (e.step now input).2.endpoint rest

theorem run_cons (e : Endpoint) (now : Instant) (input : Input) (rest : List (Instant × Input)) :
    e.run ((now, input) :: rest) = (e.step now input).2.andThen fun e => e.run rest := by
  simp only [run, List.foldl_cons, still_andThen]
  exact foldl_andThen (fun x e => (e.step x.1 x.2).2) _ rest

theorem run_nil (e : Endpoint) : e.run [] = still e := rfl

theorem run_single (e : Endpoint) (now : Instant) (input : Input) :
    e.run [(now, input)] = (e.step now input).2 := by
  rw [run_cons]
  exact andThen_still _

theorem run_append (e : Endpoint) (earlier later : List (Instant × Input)) :
    e.run (earlier ++ later) = (e.run earlier).andThen fun e => e.run later := by
  induction earlier generalizing e with
  | nil => rw [List.nil_append, run_nil, still_andThen]
  | cons x rest ih =>
    obtain ⟨now, input⟩ := x
    simp only [List.cons_append, run_cons, ih, andThen_assoc]

theorem endpoint_run_cons (e : Endpoint) (now : Instant) (input : Input)
    (rest : List (Instant × Input)) :
    (e.run ((now, input) :: rest)).endpoint = ((e.step now input).2.endpoint.run rest).endpoint := by
  rw [run_cons]; rfl

/-- **The events of a run are those of its entries**, in order. -/
theorem log_events (e : Endpoint) (inputs : List (Instant × Input)) :
    (e.run inputs).events.toList = (e.log inputs).flatMap Entry.events := by
  induction inputs generalizing e with
  | nil => rfl
  | cons x rest ih =>
    obtain ⟨now, input⟩ := x
    simp only [run_cons, andThen, Array.toList_append, log, List.flatMap_cons, ih]; rfl

/-- **The packets of a run are those of its entries**, in order. -/
theorem log_packets (e : Endpoint) (inputs : List (Instant × Input)) :
    (e.run inputs).packets.toList = (e.log inputs).flatMap Entry.packets := by
  induction inputs generalizing e with
  | nil => rfl
  | cons x rest ih =>
    obtain ⟨now, input⟩ := x
    simp only [run_cons, andThen, Array.toList_append, log, List.flatMap_cons, ih]; rfl

theorem log_append (e : Endpoint) (earlier later : List (Instant × Input)) :
    e.log (earlier ++ later) = e.log earlier ++ (e.run earlier).endpoint.log later := by
  induction earlier generalizing e with
  | nil => rfl
  | cons x rest ih =>
    obtain ⟨now, input⟩ := x
    simp only [List.cons_append, log, ih, endpoint_run_cons]

/-- The log has an entry for each input. -/
theorem log_inputs (e : Endpoint) (inputs : List (Instant × Input)) :
    (e.log inputs).map (fun x => (x.time, x.input)) = inputs := by
  induction inputs generalizing e with
  | nil => rfl
  | cons x rest ih => rw [log, List.map_cons, ih]

/-- An entry meets the endpoint that the inputs before it have led to. -/
theorem log_split {e : Endpoint} {inputs : List (Instant × Input)} {earlier later : List Entry} {x : Entry}
    (split : e.log inputs = earlier ++ x :: later) :
    ∃ first, earlier = e.log first ∧ x.before = (e.run first).endpoint := by
  induction inputs generalizing e earlier with
  | nil => simp [log] at split
  | cons y rest ih =>
    obtain ⟨now, input⟩ := y
    cases earlier with
    | nil =>
      cases split
      exact ⟨[], rfl, rfl⟩
    | cons z earlier =>
      obtain ⟨rfl, others⟩ := List.cons.inj split
      obtain ⟨first, rfl, before⟩ := ih others
      exact ⟨(now, input) :: first, rfl, before.trans (endpoint_run_cons ..).symm⟩

/-! ## Deed by deed -/

/-- A deed at its time, with the endpoint that it meets and all that comes of it. -/
structure Moment where
  time : Instant
  before : Endpoint
  deed : Deed
  answer : Option Answer
  reaction : Reaction

namespace Moment

def after (m : Moment) : Endpoint := m.reaction.endpoint

def events (m : Moment) : List Event := m.reaction.events.toList

def packets (m : Moment) : List Packet := m.reaction.packets.toList

/-- Whether a packet is dealt with here. -/
def handles (m : Moment) (p : Packet) : Bool := m.deed == .input (.packet p)

theorem handles_iff {m : Moment} {p : Packet} : m.handles p = true ↔ m.deed = .input (.packet p) := by
  simp [handles]

end Moment

/-- The deeds that an input comes down to. -/
def deeds (e : Endpoint) : Input → List Deed
  | .action (.accept present) =>
    match e.canAccept, e.handshake with
    | true, .deciding _ deferred =>
      .welcome present :: deferred.toList.map fun p => .input (.packet p)
    | _, _ => [.input (.action (.accept present))]
  | input => [.input input]

/-- One deed after the other. -/
def play (now : Instant) (e : Endpoint) : List Deed → List Moment
  | [] => []
  | d :: rest =>
    ⟨now, e, d, (perform now d e).1, (perform now d e).2⟩ ::
      play now (perform now d e).2.endpoint rest

theorem play_mem {now : Instant} {e : Endpoint} {ds : List Deed} {m : Moment} (hm : m ∈ play now e ds) :
    m.time = now ∧ m.deed ∈ ds := by
  induction ds generalizing e with
  | nil => cases hm
  | cons d ds ih =>
    rcases List.mem_cons.1 hm with rfl | hm
    · exact ⟨rfl, List.mem_cons_self⟩
    · exact ⟨(ih hm).1, List.mem_cons_of_mem d (ih hm).2⟩

/-- What comes of deeds, one after the other. -/
def performAll (now : Instant) (ds : List Deed) (e : Endpoint) : Reaction :=
  ds.foldl (fun r d => r.andThen fun e => (perform now d e).2) (still e)

/-- The moments of an entry. -/
def Entry.moments (x : Entry) : List Moment := play x.time x.before (x.before.deeds x.input)

/-- The moments of a run. -/
def moments (e : Endpoint) (inputs : List (Instant × Input)) : List Moment :=
  (e.log inputs).flatMap Entry.moments

/-- All that has been told in a past. -/
def told (past : List Moment) : List Event := past.flatMap Moment.events

@[simp] theorem told_snoc (past : List Moment) (m : Moment) : told (past ++ [m]) = told past ++ m.events := by
  simp [told]

theorem told_kept {past : List Moment} {event : Event} (m : Moment) (before : event ∈ told past) :
    event ∈ told (past ++ [m]) := by
  rw [told_snoc]; exact List.mem_append_left _ before

theorem filterMap_snoc {α β : Type} (f : α → Option β) (l : List α) (x : α) :
    (l ++ [x]).filterMap f = l.filterMap f ++ (f x).toList := by
  rw [List.filterMap_append]
  cases h : f x <;> simp [h]

/-- All that has been said to the client in a past. -/
def said (past : List Moment) : List Packet := past.flatMap Moment.packets

@[simp] theorem said_snoc (past : List Moment) (m : Moment) : said (past ++ [m]) = said past ++ m.packets := by
  simp [said]

theorem performAll_cons (now : Instant) (d : Deed) (ds : List Deed) (e : Endpoint) :
    performAll now (d :: ds) e = (perform now d e).2.andThen (performAll now ds) := by
  simp only [performAll, List.foldl_cons, still_andThen]
  exact foldl_andThen (fun d e => (perform now d e).2) _ ds

theorem play_events (now : Instant) (ds : List Deed) (e : Endpoint) :
    (performAll now ds e).events.toList = told (play now e ds) := by
  induction ds generalizing e with
  | nil => rfl
  | cons d ds ih =>
    simp only [performAll_cons, andThen, Array.toList_append, ih]; rfl

theorem play_packets (now : Instant) (ds : List Deed) (e : Endpoint) :
    (performAll now ds e).packets.toList = said (play now e ds) := by
  induction ds generalizing e with
  | nil => rfl
  | cons d ds ih =>
    simp only [performAll_cons, andThen, Array.toList_append, ih]; rfl

/-- When an accept goes through, and which deeds it is then. -/
theorem canAccept_iff {e : Endpoint} :
    e.canAccept = true ↔ e.isClosed = false ∧ ∃ due deferred, e.handshake = .deciding due deferred := by
  cases h : e.handshake <;> simp [canAccept, isAwaitingDecision, h]

theorem deeds_accept {e : Endpoint} (present : Bool) (able : e.canAccept = true) :
    ∃ due deferred, e.handshake = .deciding due deferred ∧
      e.deeds (.action (.accept present)) =
        .welcome present :: deferred.toList.map fun p => .input (.packet p) := by
  obtain ⟨-, due, deferred, asked⟩ := canAccept_iff.1 able
  exact ⟨due, deferred, asked, by simp only [deeds, able, asked]⟩

/-- What an accept that goes through does. -/
theorem step_accept {e : Endpoint} {due : Option Instant} {deferred : Array Packet} (now : Instant)
    (present : Bool) (opened : e.isClosed = false) (asked : e.handshake = .deciding due deferred) :
    e.step now (.action (.accept present)) =
      (some (.ok none), deferred.foldl (fun r p => r.andThen (receive now p)) (e.welcome now present)) := by
  have granted : e.accept now present = .ok _ := accept_eq_ok.2 ⟨opened, due, deferred, asked, rfl⟩
  simp only [step, act_eq, attempt, granted, Except.map]

/-- An input is a single deed, unless it is an accept that goes through. -/
theorem possible_or_accept (e : Endpoint) (input : Input) :
    Possible e (.input input) ∨ ∃ present, input = .action (.accept present) ∧ e.canAccept = true := by
  cases input with
  | action a =>
    cases a with
    | accept present =>
      cases able : e.canAccept with
      | false => exact .inl able
      | true => exact .inr ⟨present, rfl, rfl⟩
    | _ => exact .inl trivial
  | _ => exact .inl trivial

theorem deeds_single {e : Endpoint} {input : Input} (possible : Possible e (.input input)) :
    e.deeds input = [.input input] := by
  unfold deeds
  split
  · rename_i present
    have unable : e.canAccept = false := possible
    simp only [unable]
  · rfl

/-- **An input does what its deeds do.** -/
theorem step_performAll (now : Instant) (input : Input) (e : Endpoint) :
    (e.step now input).2 = performAll now (e.deeds input) e := by
  rcases possible_or_accept e input with single | ⟨present, rfl, able⟩
  · rw [deeds_single single, performAll_cons]
    exact (andThen_still _).symm
  · obtain ⟨due, deferred, asked, hd⟩ := deeds_accept present able
    have packets : (performAll now (deferred.toList.map fun p => .input (.packet p))) = fun e =>
        deferred.toList.foldl (fun r p => r.andThen (receive now p)) (still e) := by
      funext e
      simp only [performAll, List.foldl_map]
      rfl
    rw [hd, performAll_cons, packets, step_accept now present (canAccept_iff.1 able).1 asked]
    simp only [← Array.foldl_toList]
    exact foldl_andThen (fun p e => e.receive now p) _ deferred.toList

theorem entry_events (x : Entry) : x.events = told x.moments := by
  rw [Entry.moments, ← play_events, ← step_performAll]; rfl

/-- **The events of a run are those of its moments**, in order. -/
theorem moments_events (e : Endpoint) (inputs : List (Instant × Input)) :
    (e.run inputs).events.toList = told (e.moments inputs) := by
  rw [log_events, told, moments, List.flatMap_assoc]
  exact congrArg (List.flatMap · _) (funext entry_events)

theorem entry_packets (x : Entry) : x.packets = said x.moments := by
  rw [Entry.moments, ← play_packets, ← step_performAll]; rfl

/-- **The packets of a run are those of its moments**, in order. -/
theorem moments_packets (e : Endpoint) (inputs : List (Instant × Input)) :
    (e.run inputs).packets.toList = said (e.moments inputs) := by
  rw [log_packets, said, moments, List.flatMap_assoc]
  exact congrArg (List.flatMap · _) (funext entry_packets)

/-- An entry that is a single deed is a single moment. -/
theorem moments_single {x : Entry} (possible : Possible x.before (.input x.input)) :
    x.moments = [⟨x.time, x.before, .input x.input, x.answer, x.reaction⟩] := by
  rw [Entry.moments, deeds_single possible]; rfl

/-- A client is welcomed in no other entry than an accept that goes through. -/
theorem accepts_of_welcome {x : Entry} {m : Moment} {present : Bool} (hm : m ∈ x.moments)
    (welcomes : m.deed = .welcome present) : x.Accepts := by
  rcases possible_or_accept x.before x.input with single | ⟨present', accepts, able⟩
  · rw [moments_single single, List.mem_singleton] at hm
    subst hm
    cases welcomes
  · obtain ⟨opened, due, deferred, asked⟩ := canAccept_iff.1 able
    exact ⟨⟨present', accepts⟩, by rw [Entry.answer, accepts, step_accept _ _ opened asked]⟩

/-! ## Courses -/

/-- A past that has led from one endpoint to another, move by move. -/
inductive Course (e₀ : Endpoint) : List Moment → Endpoint → Prop where
  | start : Course e₀ [] e₀
  | next {past : List Moment} {e : Endpoint} {now : Instant} {d : Deed} {answer : Option Answer}
    {r : Reaction} (before : Course e₀ past e) (move : Move now e d answer r) :
    Course e₀ (past ++ [⟨now, e, d, answer, r⟩]) r.endpoint

theorem course_packets {e₀ : Endpoint} {past : List Moment} {e : Endpoint} (now : Instant)
    (ps : List Packet) (h : Course e₀ past e) :
    Course e₀ (past ++ play now e (ps.map fun p => .input (.packet p)))
      (performAll now (ps.map fun p => .input (.packet p)) e).endpoint := by
  induction ps generalizing past e with
  | nil => simpa [play, performAll, still] using h
  | cons p ps ih =>
    have h' := ih (h.next (perform_move now (d := .input (.packet p)) trivial))
    rw [List.append_assoc] at h'
    simp only [List.map_cons, performAll_cons]
    exact h'

theorem course_entry {e₀ : Endpoint} {past : List Moment} (x : Entry)
    (h : Course e₀ past x.before) : Course e₀ (past ++ x.moments) x.reaction.endpoint := by
  rcases possible_or_accept x.before x.input with single | ⟨present, accepts, able⟩
  · rw [moments_single single]
    exact h.next (perform_move x.time single)
  · obtain ⟨due, deferred, -, hd⟩ := deeds_accept present able
    have h' := course_packets x.time deferred.toList
      (h.next (perform_move x.time (d := .welcome present) able))
    rw [List.append_assoc] at h'
    simp only [Entry.moments, Entry.reaction, accepts, step_performAll, hd, performAll_cons]
    exact h'

/-- **The moments of a run are a course.** -/
theorem course_moments (e : Endpoint) (inputs : List (Instant × Input)) :
    Course e (e.moments inputs) (e.run inputs).endpoint := by
  -- the past grows at the end, while the inputs are taken from the front
  suffices h : ∀ past e', Course e past e' →
      Course e (past ++ e'.moments inputs) (e'.run inputs).endpoint from h [] e .start
  induction inputs with
  | nil => intro past e' h; simpa [moments, log, run, still] using h
  | cons x rest ih =>
    intro past e' h
    have h' := ih _ _ (course_entry ⟨x.1, x.2, e'⟩ h)
    rw [List.append_assoc] at h'
    rw [endpoint_run_cons]
    exact h'

/-- Any moment of a course is a move from where the moments before it have led. -/
theorem course_split {e₀ e : Endpoint} {earlier later : List Moment} {m : Moment}
    (h : Course e₀ (earlier ++ m :: later) e) :
    Course e₀ earlier m.before ∧ Move m.time m.before m.deed m.answer m.reaction := by
  generalize hall : earlier ++ m :: later = past at h
  induction h generalizing later with
  | start => simp at hall
  | next before move ih =>
    rcases List.eq_nil_or_concat later with rfl | ⟨later, last, rfl⟩
    · obtain ⟨rfl, hlast⟩ := List.append_inj' hall rfl
      cases hlast
      exact ⟨before, move⟩
    · rw [List.concat_eq_append, ← List.cons_append, ← List.append_assoc] at hall
      exact ih (List.append_inj' hall rfl).1

end MqttLink.Endpoint
