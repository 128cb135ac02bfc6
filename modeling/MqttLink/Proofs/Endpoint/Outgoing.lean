import MqttLink.Proofs.Endpoint.Story
/-!
# Outgoing exchanges

An identifier that a message is given goes through one exchange at a time: PUBACK ends one of level 1,
PUBREC and then PUBCOMP one of level 2, and the application is told each of these once, when the client
sends it. Only then can the identifier be given to another message.

The invariant is the `Diary`: what has happened under an identifier since its last exchange was
complete is what the endpoint remembers of it. `move_stride` says what a move adds to either.
-/

namespace MqttLink

/-- What happens to the messages that are sent under one identifier. -/
inductive Milestone where
  /-- The identifier was given to a message of this level. -/
  | sent (level : Qos)
  | acknowledged
  | received
  | completed
deriving DecidableEq, Repr

/-- What an event says about the exchange under an identifier. -/
def Event.milestones (id : PacketId) : Event → List Milestone
  | publishAcknowledged id' => if id' = id then [.acknowledged] else []
  | publishReceivedAck id' => if id' = id then [.received] else []
  | publishCompleted id' => if id' = id then [.completed] else []
  | _ => []

/-- The packet of the client that makes an event about an outgoing exchange. -/
def Event.cause : Event → Option Packet
  | publishAcknowledged id => some (.puback id)
  | publishReceivedAck id => some (.pubrec id)
  | publishCompleted id => some (.pubcomp id)
  | _ => none

/-- An exchange from beginning to end. -/
inductive Whole : List Milestone → Prop where
  | levelOne : Whole [.sent .atLeastOnce, .acknowledged]
  | levelTwo : Whole [.sent .exactlyOnce, .received, .completed]

/-- An exchange that has not come to its end, or none at all. -/
inductive Unfinished : List Milestone → Prop where
  | none : Unfinished []
  | sent {level : Qos} (numbered : level ≠ .atMostOnce) : Unfinished [.sent level]
  | received : Unfinished [.sent .exactlyOnce, .received]

/-- What happens next to an unfinished exchange. -/
inductive Stride : List Milestone → List Milestone → List Milestone → Prop where
  | start {level : Qos} (numbered : level ≠ .atMostOnce) : Stride [] [.sent level] [.sent level]
  | acknowledge : Stride [.sent .atLeastOnce] [.acknowledged] []
  | receive : Stride [.sent .exactlyOnce] [.received] [.sent .exactlyOnce, .received]
  | complete : Stride [.sent .exactlyOnce, .received] [.completed] []
  | rest (trail : List Milestone) : Stride trail [] trail

/-- Any unfinished exchange can come to its end. -/
theorem Unfinished.begins {trail : List Milestone} (h : Unfinished trail) :
    trail = [] ∨ ∃ block, Whole block ∧ trail <+: block := by
  cases h with
  | none => exact .inl rfl
  | @sent level numbered =>
    cases level with
    | atMostOnce => exact absurd rfl numbered
    | atLeastOnce => exact .inr ⟨_, .levelOne, ⟨[.acknowledged], rfl⟩⟩
    | exactlyOnce => exact .inr ⟨_, .levelTwo, ⟨[.received, .completed], rfl⟩⟩
  | received => exact .inr ⟨_, .levelTwo, ⟨[.completed], rfl⟩⟩

/-- A stride either leaves the exchange unfinished or completes it. -/
theorem Stride.outcome {trail news trail' : List Milestone} (h : Stride trail news trail')
    (unfinished : Unfinished trail) :
    Unfinished trail' ∧ (trail ++ news = trail' ∨ Whole (trail ++ news) ∧ trail' = []) := by
  cases h with
  | start numbered => exact ⟨.sent numbered, .inl rfl⟩
  | acknowledge => exact ⟨.none, .inr ⟨.levelOne, rfl⟩⟩
  | receive => exact ⟨.received, .inl rfl⟩
  | complete => exact ⟨.none, .inr ⟨.levelTwo, rfl⟩⟩
  | rest => exact ⟨unfinished, .inl (List.append_nil _)⟩

namespace InFlight

/-- What has happened in an outgoing exchange, if there is one. -/
def remembered : Option Outgoing → List Milestone
  | none => []
  | some (.sent m) => [.sent m.qos]
  | some .received => [.sent .exactlyOnce, .received]

/-- What has happened in the exchange that is live under an identifier. -/
def trail (f : InFlight) (id : PacketId) : List Milestone := remembered f.outgoing[id]?

section

variable {f g : InFlight} {k : PacketId} (id : PacketId)

theorem trail_insert {x : Outgoing} (h : g.outgoing = f.outgoing.insert k x) :
    g.trail id = if k = id then remembered (some x) else f.trail id := by
  rw [trail, h, getElem?_insert_id, apply_ite remembered]; rfl

theorem trail_erase (h : g.outgoing = f.outgoing.erase k) :
    g.trail id = if k = id then [] else f.trail id := by
  rw [trail, h, getElem?_erase_id, apply_ite remembered]; rfl

/-! ## One step of an exchange -/

/-- What happens under one identifier leaves the others alone. -/
theorem stride_under {news trail' : List Milestone} (h : Stride (f.trail k) news trail') :
    Stride (f.trail id) (if k = id then news else []) (if k = id then trail' else f.trail id) := by
  by_cases same : k = id
  · rw [if_pos same, if_pos same, ← same]; exact h
  · rw [if_neg same, if_neg same]; exact .rest _

theorem register_stride {m numbered : Publish} (h : f.register m = .ok (numbered, g)) :
    Stride (f.trail id) (if numbered.packetId = some id then [.sent m.qos] else []) (g.trail id) := by
  rcases register_eq_ok.1 h with ⟨-, rfl, rfl⟩ | ⟨level, k, free, rfl, hg⟩
  · exact .rest _
  · rw [trail_insert id (congrArg outgoing hg)]
    simp only [Option.some.injEq]
    refine stride_under id ?_
    rw [trail, freeId?_free free]
    exact .start level

theorem onPuback_stride (h : f.onPuback k = .ok g) :
    Stride (f.trail id) (if k = id then [.acknowledged] else []) (g.trail id) := by
  obtain ⟨-, ⟨m, live, level⟩, hg⟩ := onPuback_eq_ok.1 h
  rw [trail_erase id (congrArg outgoing hg)]
  refine stride_under id ?_
  rw [trail, live, remembered, level]
  exact .acknowledge

theorem onPubrec_stride (h : f.onPubrec k = .ok g) :
    Stride (f.trail id) (if k = id then [.received] else []) (g.trail id) := by
  obtain ⟨-, ⟨m, live, level⟩, hg⟩ := onPubrec_eq_ok.1 h
  rw [trail_insert id (congrArg outgoing hg)]
  refine stride_under id ?_
  rw [trail, live, remembered, level]
  exact .receive

theorem onPubcomp_stride (h : f.onPubcomp k = .ok g) :
    Stride (f.trail id) (if k = id then [.completed] else []) (g.trail id) := by
  obtain ⟨-, live, hg⟩ := onPubcomp_eq_ok.1 h
  rw [trail_erase id (congrArg outgoing hg)]
  refine stride_under id ?_
  rw [trail, live]
  exact .complete

/-- Sending again repeats a step and does not take the next. -/
theorem retransmit_trail {p : Packet} (h : f.retransmit k = .ok (p, g)) : g.trail id = f.trail id := by
  rcases (retransmit_eq_ok.1 h).2 with ⟨m, live, -, hg⟩ | ⟨-, -, rfl⟩
  · rw [trail_insert id (congrArg outgoing hg)]
    split
    · rename_i same
      rw [trail, ← same, live]; rfl
    · rfl
  · rfl

end

end InFlight

namespace Endpoint

open Reaction

/-- What has happened in the exchange that is live under an identifier. -/
def trail (e : Endpoint) (id : PacketId) : List Milestone := e.session.exchanges.trail id

/-- The identifier that a message is given here, with its level. -/
def Moment.given (m : Moment) : Option (PacketId × Qos) :=
  match m.answer, m.deed with
  | some (.ok (some id)), .input (.action (.publish _ _ qos _ _)) => some (id, qos)
  | _, _ => none

/-- What happens under an identifier at a moment: it is given to a message, or the application is told
about it. -/
def Moment.milestones (id : PacketId) (m : Moment) : List Milestone :=
  (match m.given with
    | some (id', level) => if id' = id then [.sent level] else []
    | none => []) ++ m.events.flatMap (·.milestones id)

/-- All that has happened under an identifier. -/
def progress (id : PacketId) (past : List Moment) : List Milestone := past.flatMap (·.milestones id)

theorem milestones_told {id : PacketId} {m : Moment} {event : Event} (ungiven : m.given = none)
    (told : m.events = [event]) : m.milestones id = event.milestones id := by
  simp [Moment.milestones, ungiven, told]

/-! ## One move -/

theorem served_stride {now : Instant} {e : Endpoint} {p : Packet} {r : Reaction} (id : PacketId)
    (fits : Served (e.touched now) p r) :
    Stride (e.trail id) (Moment.milestones id ⟨now, e, .input (.packet p), none, r⟩)
      (r.endpoint.trail id) := by
  cases fits with
  | levelZero | levelOne | again | subscribe | unsubscribe | pingreq => exact .rest _
  | levelTwo _ _ _ _ hf => subst hf; exact .rest _
  | pubrel fits =>
    obtain ⟨-, -, rfl⟩ := InFlight.onPubrel_eq_ok.1 fits
    exact .rest _
  | puback fits =>
    rw [milestones_told rfl rfl]
    exact InFlight.onPuback_stride id fits
  | pubrec fits =>
    rw [milestones_told rfl rfl]
    exact InFlight.onPubrec_stride id fits
  | pubcomp fits =>
    rw [milestones_told rfl rfl]
    exact InFlight.onPubcomp_stride id fits

theorem granted_stride {now : Instant} {e : Endpoint} {a : Action} {given : Option PacketId}
    {r : Reaction} (id : PacketId) (fits : Granted e a given r) :
    Stride (e.trail id) (Moment.milestones id ⟨now, e, .input (.action a), some (.ok given), r⟩)
      (r.endpoint.trail id) := by
  cases fits with
  | @publish topic payload qos dup retain m f name fits =>
    have stride := InFlight.register_stride id fits
    cases hm : m.packetId with
    | none => rw [hm] at stride; exact stride
    | some k =>
      simp only [hm, Option.some.injEq, draft] at stride
      simpa [Moment.milestones, Moment.given, Moment.events, trail, withExchanges] using stride
  | retransmit fits =>
    have same := InFlight.retransmit_trail id fits
    simpa [Moment.milestones, Moment.given, Moment.events, trail, withExchanges, same] using Stride.rest _
  | _ => exact .rest _

/-- A move takes the exchange under an identifier one stride further, or leaves it, or ends the
connection with all exchanges. -/
theorem move_stride {now : Instant} {e : Endpoint} {d : Deed} {answer : Option Answer} {r : Reaction}
    (id : PacketId) (move : Move now e d answer r) :
    ∃ trail', Stride (e.trail id) (Moment.milestones id ⟨now, e, d, answer, r⟩) trail' ∧
      (r.endpoint.isClosed = false → r.endpoint.trail id = trail') := by
  cases move with
  | served phase fits => exact ⟨_, served_stride id fits, fun _ => rfl⟩
  | granted phase fits => exact ⟨_, granted_stride id fits, fun _ => rfl⟩
  | asked | deferred | welcomed | idle | denied => exact ⟨_, .rest _, fun _ => rfl⟩
  | @ignored input gone =>
    cases input <;> exact ⟨_, .rest _, fun _ => rfl⟩
  | refused opened refuses =>
    refine ⟨e.trail id, ?_, fun opened' => ?_⟩
    · cases refuses <;> exact .rest _
    · rw [isClosed_ended] at opened'
      cases opened'
  | ended opened ends =>
    refine ⟨e.trail id, .rest _, fun opened' => ?_⟩
    rw [isClosed_ended] at opened'
    cases opened'

/-- An event about an outgoing exchange is all that is told when its packet is dealt with. -/
theorem Move.caused {now : Instant} {e : Endpoint} {d : Deed} {answer : Option Answer} {r : Reaction}
    (move : Move now e d answer r) {event : Event} {p : Packet} (told : event ∈ r.events.toList)
    (cause : event.cause = some p) : d = .input (.packet p) ∧ r.events.toList = [event] := by
  cases move with
  | served phase fits =>
    cases fits <;> simp only [List.mem_singleton, List.not_mem_nil] at told <;> subst told <;>
      cases cause <;> exact ⟨rfl, rfl⟩
  | granted phase fits =>
    rw [fits.same_stage.2.2] at told
    cases told
  | ignored | deferred | welcomed | idle | denied => cases told
  | asked | refused | ended =>
    simp only [List.mem_singleton] at told
    subst told
    cases cause

/-! ## Whole runs -/

/-- What has happened under an identifier: some exchanges that are complete, and one that is not, which
is what the endpoint remembers. -/
structure Diary (id : PacketId) (past : List Moment) (e : Endpoint) (blocks : List (List Milestone))
    (unfinished : List Milestone) : Prop where
  whole : ∀ block ∈ blocks, Whole block
  last : Unfinished unfinished
  written : progress id past = blocks.flatten ++ unfinished
  live : e.isClosed = false → e.trail id = unfinished

theorem milestones_over {now : Instant} {e : Endpoint} {d : Deed} {answer : Option Answer}
    {r : Reaction} (id : PacketId) (move : Move now e d answer r) (gone : e.isClosed = true) :
    Moment.milestones id ⟨now, e, d, answer, r⟩ = [] := by
  obtain ⟨input, rfl, rfl, rfl⟩ := move.of_closed gone
  cases input <;> rfl

theorem diary_next {id : PacketId} {past : List Moment} {e : Endpoint} {blocks : List (List Milestone)}
    {unfinished : List Milestone} {now : Instant} {d : Deed} {answer : Option Answer} {r : Reaction}
    (h : Diary id past e blocks unfinished) (move : Move now e d answer r) :
    ∃ blocks' unfinished', Diary id (past ++ [⟨now, e, d, answer, r⟩]) r.endpoint blocks' unfinished' := by
  have more : progress id (past ++ [⟨now, e, d, answer, r⟩]) =
      blocks.flatten ++ (unfinished ++ Moment.milestones id ⟨now, e, d, answer, r⟩) := by
    rw [← List.append_assoc, ← h.written]
    simp [progress]
  cases gone : e.isClosed with
  | true =>
    refine ⟨blocks, unfinished, h.whole, h.last, ?_, fun opened => ?_⟩
    · rw [more, milestones_over id move gone, List.append_nil]
    · rw [move.opened opened] at gone
      cases gone
  | false =>
    obtain ⟨trail', stride, live⟩ := move_stride id move
    rw [h.live gone] at stride
    obtain ⟨last, same | ⟨whole, rfl⟩⟩ := stride.outcome h.last
    · exact ⟨blocks, trail', h.whole, last, by rw [more, same], live⟩
    · refine ⟨blocks ++ [unfinished ++ Moment.milestones id ⟨now, e, d, answer, r⟩], [], ?_, last, ?_, live⟩
      · intro block hb
        rcases List.mem_append.1 hb with hb | hb
        · exact h.whole block hb
        · rw [List.mem_singleton.1 hb]; exact whole
      · rw [more, List.flatten_append, List.flatten_singleton, List.append_nil]

theorem course_diary {policy : Policy} {opened : Instant} {past : List Moment} {e : Endpoint}
    (id : PacketId) (h : Course (start policy opened) past e) :
    ∃ blocks unfinished, Diary id past e blocks unfinished := by
  induction h with
  | start =>
    refine ⟨[], [], List.forall_mem_nil _, .none, rfl, fun _ => ?_⟩
    exact congrArg InFlight.remembered (InFlight.outgoing_empty id)
  | next _ move ih =>
    obtain ⟨blocks, unfinished, diary⟩ := ih
    exact diary_next diary move

/-- **Outgoing exchanges come one after the other.** Under each identifier, whatever else happens: the
identifier is given to a message, then the application hears of each step of its exchange in turn, up to
the last, and only then it is given to another. Each step is told when the packet for it is dealt with,
and nothing else is told then. -/
theorem run_progress (policy : Policy) (opened : Instant) (inputs : List (Instant × Input))
    (id : PacketId) :
    (∃ blocks : List (List Milestone), (∀ block ∈ blocks, Whole block) ∧
      progress id ((start policy opened).moments inputs) <+: blocks.flatten) ∧
    ∀ m ∈ (start policy opened).moments inputs, ∀ event ∈ m.events, ∀ p, event.cause = some p →
      m.deed = .input (.packet p) ∧ m.events = [event] := by
  have course := course_moments (start policy opened) inputs
  refine ⟨?_, ?_⟩
  · obtain ⟨blocks, unfinished, diary⟩ := course_diary id course
    rw [diary.written]
    rcases diary.last.begins with rfl | ⟨block, whole, begins⟩
    · exact ⟨blocks, diary.whole, ⟨[], by simp only [List.append_nil]⟩⟩
    · refine ⟨blocks ++ [block], ?_, ?_⟩
      · intro b hb
        rcases List.mem_append.1 hb with hb | hb
        · exact diary.whole b hb
        · rw [List.mem_singleton.1 hb]; exact whole
      · rw [List.flatten_append, List.flatten_singleton]
        exact (List.prefix_append_right_inj _).2 begins
  · intro m hm event told p cause
    obtain ⟨earlier, later, split⟩ := List.append_of_mem hm
    rw [split] at course
    exact (course_split course).2.caused told cause

end Endpoint
end MqttLink
