import MqttLink.Proofs.Endpoint.Connack
/-!
# Packets behind a CONNECT

A packet that comes while the application is still thinking about CONNECT is held back, and dealt with
inside the accept. So the same packets take one of two ways: through the list of what is held back, or
straight to the endpoint once the decision has been made. `run_deferral` says that the way makes no
difference.
-/

namespace MqttLink.Endpoint

open Reaction

/-- Packets that come at one time. -/
def arrivals (now : Instant) (ps : List Packet) : List (Instant × Input) := ps.map fun p => (now, .packet p)

/-- Whether CONNECT has come and nothing has been decided; the packets behind it are held back. -/
structure Undecided (e : Endpoint) (due : Option Instant) (held : Array Packet) : Prop where
  phase : e.session.phase = .awaitingConnect
  asked : e.handshake = .deciding due held

/-- The endpoint when more packets are held back. -/
def holding (e : Endpoint) (due : Option Instant) (held : Array Packet) : Endpoint :=
  { e with handshake := .deciding due held }

section

variable {e : Endpoint} {due : Option Instant} {held : Array Packet}

theorem Undecided.opened (h : Undecided e due held) : e.isClosed = false := isClosed_awaiting h.phase

theorem Undecided.awaits (h : Undecided e due held) : e.isAwaitingDecision = true := by
  rw [isAwaitingDecision, h.asked]

theorem Undecided.holding (h : Undecided e due held) (more : Array Packet) :
    Undecided (e.holding due more) due more := ⟨h.phase, rfl⟩

theorem Undecided.same (h : Undecided e due held) : e.holding due held = e := by
  rw [Endpoint.holding, ← h.asked]

theorem run_arrivals (now : Instant) (ps : List Packet) (e : Endpoint) :
    e.run (arrivals now ps) = ps.foldl (fun r p => r.andThen (receive now p)) (still e) :=
  List.foldl_map

/-- Until the decision, packets are held back and do nothing else. -/
theorem run_held (h : Undecided e due held) (now : Instant) (ps : List Packet) :
    e.run (arrivals now ps) = still (e.holding due (held ++ ps)) := by
  induction ps generalizing e held with
  | nil => rw [arrivals, List.map_nil, run_nil, Array.appendList_nil, h.same]
  | cons p ps ih =>
    have kept : (e.step now (.packet p)).2 = still (e.holding due (held.push p)) := by
      simp only [step, receive, h.phase, h.asked, Endpoint.holding]
    have rest := ih (h.holding (held.push p))
    simp only [arrivals, List.map_cons, run_cons, kept, still_andThen] at rest ⊢
    rw [rest]
    simp [Endpoint.holding]

/-! ## Both decisions -/

theorem step_reject (h : Undecided e due held) (now : Instant) (code : ConnectCode) :
    e.step now (.action (.reject code)) =
      if code.isAccepted then (some (.error .invalidRejectCode), still e)
      else (some (.ok none), e.refuse code) := by
  cases accepted : code.isAccepted with
  | true =>
    have turned : e.reject code = .error .invalidRejectCode := by
      simp only [reject, requireOpen, h.opened, accepted]; rfl
    simp only [step, act_eq, attempt, turned, Except.map, if_true]
  | false =>
    have granted : e.reject code = .ok (e.refuse code) :=
      reject_eq_ok.2 ⟨h.opened, accepted, h.awaits, rfl⟩
    simp only [step, act_eq, attempt, granted, Except.map, Bool.false_eq_true, if_false]

/-- What is held back makes no difference to a client that is turned away. -/
theorem refuse_holding (h : Undecided e due held) (more : Array Packet) (code : ConnectCode) :
    (e.holding due more).refuse code = e.refuse code := by
  rw [refuse_open code h.opened, refuse_open code (h.holding more).opened]
  rfl

/-- **A decision, and the packets that come about it.** Whether they come before or after it, the
decision is answered alike and the same comes of all of it. -/
theorem decision_arrivals (h : Undecided e due held) {d : Action} (decides : d.decides = true)
    (now : Instant) (ps : List Packet) :
    ((e.holding due (held ++ ps)).step now (.action d)).1 = (e.step now (.action d)).1 ∧
    ((e.holding due (held ++ ps)).step now (.action d)).2 =
      (e.step now (.action d)).2.andThen fun e => e.run (arrivals now ps) := by
  have behind := h.holding (held ++ ps)
  cases d with
  | accept present =>
    rw [step_accept now present h.opened h.asked, step_accept now present behind.opened behind.asked]
    refine ⟨rfl, ?_⟩
    have welcomed : (e.holding due (held ++ ps)).welcome now present = e.welcome now present := rfl
    simp only [run_arrivals, welcomed, ← Array.foldl_toList, Array.toList_appendList, List.foldl_append]
    exact foldl_andThen (fun p e => e.receive now p) _ ps
  | reject code =>
    rw [step_reject h, step_reject behind, refuse_holding h]
    cases code.isAccepted with
    | true => exact ⟨rfl, by rw [if_pos rfl, if_pos rfl, still_andThen, run_held h]⟩
    | false =>
      refine ⟨rfl, ?_⟩
      have gone : (e.refuse code).endpoint.isClosed = true := by
        rw [refuse_open code h.opened]; exact isClosed_ended e
      simp only [Bool.false_eq_true, if_false, andThen, run_over _ gone]
      exact (andThen_still _).symm
  | _ => cases decides

end

/-! ## From CONNECT on -/

/-- The first CONNECT is refused out of hand, or the application is asked about it. -/
theorem step_connect (policy : Policy) (opened asked : Instant) (c : Connect) :
    let e := ((start policy opened).step asked (.packet (.connect c))).2.endpoint
    e.isClosed = true ∨ ∃ due, Undecided e due #[] := by
  simp only [step, receive, start, Session.start, onConnect]
  split
  · refine .inl ?_
    rw [refuse_open _ (isClosed_awaiting rfl)]
    exact isClosed_ended _
  · exact .inr ⟨_, rfl, rfl⟩

/-- From any endpoint on that has been asked, or is over. -/
theorem run_about {e : Endpoint} {d : Action} (decides : d.decides = true) (now : Instant)
    (ps : List Packet) (stage : e.isClosed = true ∨ ∃ due held, Undecided e due held) :
    (e.run (arrivals now ps ++ [(now, .action d)]) = e.run ((now, .action d) :: arrivals now ps)) ∧
    ((e.run (arrivals now ps)).endpoint.step now (.action d)).1 = (e.step now (.action d)).1 := by
  rcases stage with gone | ⟨due, held, undecided⟩
  · rw [run_over _ gone, run_over _ gone, run_over _ gone]
    exact ⟨rfl, rfl⟩
  · obtain ⟨answer, reaction⟩ := decision_arrivals undecided decides now ps
    rw [run_append, run_held undecided, still_andThen, run_single, run_cons]
    exact ⟨reaction, answer⟩

/-- **Deferral makes no difference.** A new endpoint gets CONNECT, and at some later time packets and the
application's decision. It makes no difference whether the packets come before the decision, and are held
back, or right after it: the same endpoint comes of it, with the same packets for the client and the same
events for the application, each in the same order, whatever else comes then; and the decision is answered
alike. -/
theorem run_deferral {d : Action} (decides : d.decides = true) (policy : Policy)
    (opened asked now : Instant) (c : Connect) (ps : List Packet) (later : List (Instant × Input)) :
    let request := (asked, Input.packet (.connect c))
    let decision := (now, Input.action d)
    (start policy opened).run (request :: (arrivals now ps ++ decision :: later)) =
      (start policy opened).run (request :: decision :: (arrivals now ps ++ later)) ∧
    (((start policy opened).run (request :: arrivals now ps)).endpoint.step now (.action d)).1 =
      (((start policy opened).run [request]).endpoint.step now (.action d)).1 := by
  intro request decision
  have stage := step_connect policy opened asked c
  obtain ⟨reaction, answer⟩ := run_about decides now ps (stage.imp_right fun ⟨due, h⟩ => ⟨due, _, h⟩)
  constructor
  · have behind (e : Endpoint) : e.run (arrivals now ps ++ decision :: later) =
        (e.run (arrivals now ps ++ [decision])).andThen fun e => e.run later := by
      rw [← run_append, List.append_assoc, List.singleton_append]
    have ahead (e : Endpoint) : e.run (decision :: (arrivals now ps ++ later)) =
        (e.run (decision :: arrivals now ps)).andThen fun e => e.run later := by
      rw [← run_append, List.cons_append]
    rw [run_cons, run_cons, andThen, andThen, behind, ahead, reaction]
  · rw [endpoint_run_cons, run_single]
    exact answer

/-- What a client sends that does not wait for CONNACK: a message, then a second CONNECT, and a ping that
comes too late. -/
def eager : List Packet :=
  [.publish ⟨false, .atLeastOnce, false, "t", some 7, [1]⟩,
    .connect ⟨.v311, "c", true, 0, none, none, none⟩, .pingreq]

theorem eager_deferral :
    let connect : Instant × Input := (0, .packet (.connect ⟨.v311, "c", true, 0, none, none, none⟩))
    (Action.accept true).decides = true ∧
      (start ⟨none, none, true⟩ 0).run (connect :: (arrivals 1 eager ++ [(1, .action (.accept true))])) =
        (start ⟨none, none, true⟩ 0).run (connect :: (1, .action (.accept true)) :: arrivals 1 eager) ∧
      ((start ⟨none, none, true⟩ 0).run
        (connect :: (arrivals 1 eager ++ [(1, .action (.accept true))]))).packets.toList =
          [.connack false .accepted, .puback 7] := by
  intro connect
  have same := (run_deferral (d := .accept true) rfl ⟨none, none, true⟩ 0 0 1
    ⟨.v311, "c", true, 0, none, none, none⟩ eager []).1
  rw [List.append_nil] at same
  exact ⟨rfl, same, by decide⟩

end MqttLink.Endpoint
