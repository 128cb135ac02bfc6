import MqttLink.Proofs.Endpoint.Deadlines
/-!
# What there is of an endpoint in each phase

A connection goes through its phases in one direction, and each has its own part of the state: the decision
and the deadline for CONNECT belong to the first, the watch, the exchanges and what waits for an answer to
the second, and nothing is left in the last. Who the client is stays what its CONNECT has said.

The invariant is the `Standing`, with one constructor for each phase; that the watch has not expired is the
`Schedule`'s. `Known` adds whom the endpoint takes the client for. `run_consistent` reads all of it off for
any run.
-/

namespace MqttLink

/-- Who a client is, and how it wants its session kept. -/
structure Identity where
  clientId : String
  level : ProtocolLevel
  keepAlive : UInt16
  cleanSession : Bool
  username : Option String
deriving DecidableEq, Repr

/-- What is assumed about a client that has not been heard of. -/
def Identity.unknown : Identity := ⟨"", .v311, 0, true, none⟩

def Connect.identity (c : Connect) : Identity :=
  ⟨c.clientId, c.level, c.keepAlive, c.cleanSession, c.username⟩

def Session.identity (s : Session) : Identity :=
  ⟨s.clientId, s.level, s.keepAlive, s.cleanSession, s.username⟩

theorem Phase.rank_le_closed (p : Phase) : p.rank ≤ Phase.closed.rank := by
  cases p <;> decide

/-- The first phase does not come back. -/
theorem Phase.late_of_rank_le {p q : Phase} (h : p.rank ≤ q.rank) (late : p ≠ .awaitingConnect) :
    q ≠ .awaitingConnect := by
  rintro rfl
  cases p with
  | awaitingConnect => exact late rfl
  | connected | closing | closed => exact absurd h (by decide)

namespace Endpoint

open Reaction

/-- The deadline for CONNECT, while it has not come. -/
def connectDeadline (e : Endpoint) : Option Instant :=
  match e.handshake with
  | .waiting due => due
  | _ => none

/-- The CONNECT that is taken in here: not one that is held back, and not one that comes too late. -/
def Moment.introduction (m : Moment) : Option Connect :=
  match m.deed with
  | .input (.packet (.connect c)) =>
    if m.before.session.phase = .awaitingConnect ∧ m.before.isAwaitingDecision = false then some c else none
  | _ => none

theorem introduction_iff {m : Moment} {c : Connect} :
    m.introduction = some c ↔ m.deed = .input (.packet (.connect c)) ∧
      m.before.session.phase = .awaitingConnect ∧ m.before.isAwaitingDecision = false := by
  unfold Moment.introduction
  split
  · rename_i c' deed
    rw [deed, Option.ite_none_right_eq_some]
    constructor
    · rintro ⟨early, ⟨⟩⟩
      exact ⟨rfl, early⟩
    · rintro ⟨⟨⟩, early⟩
      exact ⟨early, rfl⟩
  · rename_i other
    constructor
    · rintro ⟨⟩
    · rintro ⟨deed, -⟩
      exact absurd deed (other c)

theorem introduction_late {m : Moment} (late : m.before.session.phase ≠ .awaitingConnect) :
    m.introduction = none := by
  rw [Option.eq_none_iff_forall_ne_some]
  intro c taken
  exact late (introduction_iff.1 taken).2.1

/-- The CONNECTs that have been taken in. -/
def introductions (past : List Moment) : List Connect := past.filterMap Moment.introduction

/-! ## One move -/

/-- Nothing is in flight, and nothing waits for an answer. -/
structure Bare (e : Endpoint) : Prop where
  unwatched : e.session.watch = none
  outgoing : e.session.exchanges.outgoing = ∅
  incoming : e.session.exchanges.incoming = ∅
  subscribes : e.subscribes = ∅
  unsubscribes : e.unsubscribes = ∅

/-- The parts of an endpoint that each phase has and has not. -/
inductive Standing (e : Endpoint) : Prop where
  | awaiting (phase : e.session.phase = .awaitingConnect) (undecided : e.handshake ≠ .over) (bare : Bare e)
  | connected (phase : e.session.phase = .connected) (decided : e.handshake = .over)
  | closed (phase : e.session.phase = .closed) (decided : e.handshake = .over) (bare : Bare e)
    (unwilled : e.session.will = none)

theorem bare_ended (e : Endpoint) : Bare e.ended := ⟨rfl, rfl, rfl, rfl, rfl⟩

theorem standing_ended (e : Endpoint) : Standing e.ended := .closed rfl rfl (bare_ended e) rfl

theorem Standing.apart {e : Endpoint} (h : Standing e) (apart : e.session.phase ≠ .connected) : Bare e := by
  cases h with
  | awaiting _ _ bare => exact bare
  | connected phase => exact absurd phase apart
  | closed _ _ bare => exact bare

theorem Standing.decided {e : Endpoint} (h : Standing e) (late : e.session.phase ≠ .awaitingConnect) :
    e.handshake = .over := by
  cases h with
  | awaiting phase => exact absurd phase late
  | connected _ decided => exact decided
  | closed _ decided => exact decided

theorem Standing.unhalting {e : Endpoint} (h : Standing e) : e.session.phase ≠ .closing := by
  cases h with
  | awaiting phase | connected phase | closed phase => simp [phase]

theorem Standing.unwilled {e : Endpoint} (h : Standing e) (phase : e.session.phase = .closed) :
    e.session.will = none := by
  cases h with
  | awaiting phase' | connected phase' => cases phase.symm.trans phase'
  | closed _ _ _ unwilled => exact unwilled

/-- Only before the client is let in is there anything to wait for. -/
theorem Standing.early {e : Endpoint} (h : Standing e)
    (waits : e.isAwaitingDecision = true ∨ e.connectDeadline ≠ none) : e.session.phase = .awaitingConnect := by
  cases h with
  | awaiting phase => exact phase
  | connected _ decided | closed _ decided => simp [isAwaitingDecision, connectDeadline, decided] at waits

theorem connectDeadline_asked {e : Endpoint} (asked : e.isAwaitingDecision = true) :
    e.connectDeadline = none := by
  unfold isAwaitingDecision at asked
  unfold connectDeadline
  split at asked
  · rename_i deciding; rw [deciding]
  · cases asked

theorem standing_next {e : Endpoint} {now : Instant} {d : Deed} {answer : Option Answer} {r : Reaction}
    (h : Standing e) (move : Move now e d answer r) : Standing r.endpoint := by
  cases move with
  | ignored | idle | denied => exact h
  | asked phase | deferred phase =>
    have bare := h.apart (by simp [phase])
    exact .awaiting phase nofun ⟨bare.unwatched, bare.outgoing, bare.incoming, bare.subscribes, bare.unsubscribes⟩
  | welcomed => exact .connected rfl rfl
  | served phase fits =>
    obtain ⟨samePhase, sameHandshake⟩ := fits.same_stage
    exact .connected (samePhase.trans phase) (sameHandshake.trans (h.decided (by simp [phase])))
  | granted phase fits =>
    obtain ⟨samePhase, sameHandshake, -⟩ := fits.same_stage
    exact .connected (samePhase.trans phase) (sameHandshake.trans (h.decided (by simp [phase])))
  | refused | ended => exact standing_ended _

/-- No move leads back into an earlier phase. -/
theorem Move.rank_le {e : Endpoint} {now : Instant} {d : Deed} {answer : Option Answer} {r : Reaction}
    (move : Move now e d answer r) : e.session.phase.rank ≤ r.endpoint.session.phase.rank := by
  cases move with
  | ignored | idle | denied | asked | deferred => exact Nat.le_refl _
  | welcomed able =>
    have opened : ¬ Phase.closing.rank ≤ e.session.phase.rank :=
      of_decide_eq_false (canAccept_iff.1 able).1
    exact Nat.le_of_lt_succ (Nat.lt_of_not_le opened)
  | served _ fits => exact Nat.le_of_eq (congrArg Phase.rank fits.same_stage.1.symm)
  | granted _ fits => exact Nat.le_of_eq (congrArg Phase.rank fits.same_stage.1.symm)
  | refused | ended => exact Phase.rank_le_closed _

theorem Served.identity {e : Endpoint} {p : Packet} {r : Reaction} (h : Served e p r) :
    r.endpoint.session.identity = e.session.identity := by
  cases h <;> rfl

theorem Granted.identity {e : Endpoint} {a : Action} {id : Option PacketId} {r : Reaction}
    (h : Granted e a id r) : r.endpoint.session.identity = e.session.identity := by
  cases h <;> rfl

/-- Nothing but a CONNECT that is taken in changes whom the endpoint takes the client for. -/
theorem Move.identity {e : Endpoint} {now : Instant} {d : Deed} {answer : Option Answer} {r : Reaction}
    (move : Move now e d answer r) :
    r.endpoint.session.identity =
      ((Moment.introduction ⟨now, e, d, answer, r⟩).map Connect.identity).getD e.session.identity := by
  cases move with
  | idle | denied | welcomed => rfl
  | granted _ fits => exact fits.identity
  | ignored gone =>
    rw [introduction_late (m := ⟨now, e, _, _, _⟩) fun phase => ?_]
    · rfl
    · cases (isClosed_awaiting phase).symm.trans gone
  | asked phase undecided =>
    rw [introduction_iff.2 ⟨rfl, phase, undecided⟩]
    rfl
  | deferred _ asked =>
    cases taken : Moment.introduction ⟨now, e, _, none, _⟩ with
    | none => rfl
    | some c =>
      obtain ⟨-, -, undecided⟩ := introduction_iff.1 taken
      simp [isAwaitingDecision, asked] at undecided
  | served phase fits =>
    rw [introduction_late (m := ⟨now, e, _, _, _⟩) (by simp [phase]), fits.identity]
    rfl
  | refused _ refuses =>
    cases refuses with
    | nameless phase undecided =>
      rw [introduction_iff.2 ⟨rfl, phase, undecided⟩]
      rfl
    | level | reject | undecided => rfl
  | ended _ ends =>
    cases taken : Moment.introduction ⟨now, e, _, none, _⟩ with
    | none => rfl
    | some c =>
      obtain ⟨deed, phase, -⟩ := introduction_iff.1 taken
      cases deed
      cases ends with
      | early _ _ other => exact absurd rfl (other c)
      | violation phase' => cases phase.symm.trans phase'

/-! ## Whole runs -/

theorem Course.standing {e₀ e : Endpoint} {past : List Moment} (h : Course e₀ past e) (first : Standing e₀) :
    Standing e := by
  induction h with
  | start => exact first
  | next _ move ih => exact standing_next ih move

theorem standing_start (policy : Policy) (opened : Instant) : Standing (start policy opened) :=
  .awaiting rfl nofun ⟨rfl, rfl, rfl, rfl, rfl⟩

theorem course_standing {policy : Policy} {opened : Instant} {past : List Moment} {e : Endpoint}
    (h : Course (start policy opened) past e) : Standing e :=
  h.standing (standing_start policy opened)

theorem course_rank {e₀ e : Endpoint} {past : List Moment} (h : Course e₀ past e) :
    e₀.session.phase.rank ≤ e.session.phase.rank := by
  induction h with
  | start => exact Nat.le_refl _
  | next _ move ih => exact Nat.le_trans ih move.rank_le

/-- Whom an endpoint takes the client for: whom the one CONNECT names that has been taken in, or nobody. -/
inductive Known (past : List Moment) (e : Endpoint) : Prop where
  | stranger (none : introductions past = []) (identity : e.session.identity = .unknown)
  | introduced {c : Connect} (once : introductions past = [c]) (identity : e.session.identity = c.identity)

theorem known_next {policy : Policy} {past : List Moment} {e : Endpoint} {now : Instant} {d : Deed}
    {answer : Option Answer} {r : Reaction} (h : Known past e) (docket : Docket policy past e)
    (move : Move now e d answer r) : Known (past ++ [⟨now, e, d, answer, r⟩]) r.endpoint := by
  have identity := move.identity
  have snoc : introductions (past ++ [⟨now, e, d, answer, r⟩]) = introductions past ++ _ :=
    filterMap_snoc Moment.introduction past _
  cases taken : Moment.introduction ⟨now, e, d, answer, r⟩ with
  | none =>
    rw [taken] at identity snoc
    have same := snoc.trans (List.append_nil _)
    cases h with
    | stranger none unknown => exact .stranger (same.trans none) (identity.trans unknown)
    | introduced once known => exact .introduced (same.trans once) (identity.trans known)
  | some c =>
    rw [taken] at identity snoc
    obtain ⟨-, phase, undecided⟩ := introduction_iff.1 taken
    -- no packet has come before, and so no CONNECT
    have first : introductions past = [] := by
      rw [introductions, List.filterMap_eq_nil_iff]
      intro m hm
      rw [Option.eq_none_iff_forall_ne_some]
      intro c' taken'
      exact docket.unheard phase undecided m hm _ (introduction_iff.1 taken').1
    exact .introduced (by rw [snoc, first]; rfl) identity

theorem course_known {policy : Policy} {opened : Instant} {past : List Moment} {e : Endpoint}
    (h : Course (start policy opened) past e) : Known past e := by
  induction h with
  | start => exact .stranger rfl rfl
  | next before move ih => exact known_next ih (course_docket before) move

/-- What holds of an endpoint between any two inputs, given its past. -/
structure Consistent (past : List Moment) (e : Endpoint) : Prop where
  /-- There is no half-closed connection. -/
  unhalting : e.session.phase ≠ .closing
  /-- A decision is to be made, or CONNECT is waited for, only before the client is let in. -/
  early : e.isAwaitingDecision = true ∨ e.connectDeadline ≠ none → e.session.phase = .awaitingConnect
  /-- CONNECT is not waited for once there is one to decide about. This holds by the type: a `Handshake` has one
  deadline at a time, as `handle_connect` clears the deadline for CONNECT before it sets the one for the
  decision. -/
  apart : e.isAwaitingDecision = true → e.connectDeadline = none
  /-- Exactly the clients that have been let in are watched. -/
  watched : e.session.watch.isSome = true ↔ e.session.phase = .connected
  /-- A client that has been silent for too long is gone. -/
  unexpired : ∀ w, e.session.watch = some w → w.expired = false
  outgoing : e.session.phase ≠ .connected → e.session.exchanges.outgoing = ∅
  incoming : e.session.phase ≠ .connected → e.session.exchanges.incoming = ∅
  subscribes : e.session.phase ≠ .connected → e.subscribes = ∅
  unsubscribes : e.session.phase ≠ .connected → e.unsubscribes = ∅
  /-- A will is told with the end or never. -/
  unwilled : e.session.phase = .closed → e.session.will = none
  /-- The client is who the first CONNECT says that is taken in, and there is no second one. -/
  known : (introductions past = [] ∧ e.session.identity = .unknown) ∨
    ∃ c, introductions past = [c] ∧ e.session.identity = c.identity

section

variable {policy : Policy} {opened : Instant} {past : List Moment} {e : Endpoint}

theorem course_watched (h : Course (start policy opened) past e) :
    e.session.watch.isSome = true ↔ e.session.phase = .connected := by
  constructor
  · intro watched
    refine Decidable.byContradiction fun apart => ?_
    rw [((course_standing h).apart apart).unwatched] at watched
    cases watched
  · intro phase
    obtain ⟨_, _, -, -, watch⟩ := (course_schedule h).watch phase
    rw [watch]
    rfl

theorem course_unexpired (h : Course (start policy opened) past e) {w : KeepAlive.Watch}
    (watch : e.session.watch = some w) : w.expired = false := by
  have phase := (course_watched h).1 (by rw [watch]; rfl)
  obtain ⟨_, _, -, -, running⟩ := (course_schedule h).watch phase
  cases watch.symm.trans running
  rfl

theorem course_consistent (h : Course (start policy opened) past e) : Consistent past e where
  unhalting := (course_standing h).unhalting
  early := (course_standing h).early
  apart := connectDeadline_asked
  watched := course_watched h
  unexpired _ := course_unexpired h
  outgoing apart := ((course_standing h).apart apart).outgoing
  incoming apart := ((course_standing h).apart apart).incoming
  subscribes apart := ((course_standing h).apart apart).subscribes
  unsubscribes apart := ((course_standing h).apart apart).unsubscribes
  unwilled := (course_standing h).unwilled
  known := by
    cases course_known h with
    | stranger none identity => exact .inl ⟨none, identity⟩
    | introduced once identity => exact .inr ⟨_, once, identity⟩

end

/-- **The state of an endpoint fits its phase.** Whatever happens to an endpoint: between any two inputs each
part of its state is there in its own phases only, its client is who the one CONNECT says that has been
taken in, and whatever happens next does not lead back into an earlier phase. -/
theorem run_consistent (policy : Policy) (opened : Instant) (inputs more : List (Instant × Input)) :
    let e := ((start policy opened).run inputs).endpoint
    Consistent ((start policy opened).moments inputs) e ∧
    e.session.phase.rank ≤ ((start policy opened).run (inputs ++ more)).endpoint.session.phase.rank := by
  intro e
  refine ⟨course_consistent (course_moments (start policy opened) inputs), ?_⟩
  have later := course_rank (course_moments e more)
  rw [run_append]
  exact later

end Endpoint
end MqttLink
