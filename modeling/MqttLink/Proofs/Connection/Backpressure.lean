import MqttLink.Proofs.Connection.Delivery
/-!
# Backpressure

A client cannot make a connection pile up anything. No byte is read and nothing is taken out of the buffer
unless the backlog is shorter than the channel is large, the connection is open and no decision about CONNECT
is due; and what is taken out makes the backlog longer by one event at most. Other inputs tell the application
something only when they end the connection, once. So the backlog is never longer than the channel is large by
more than that one event.

`upTo` looks at a connection in the middle of a deed, and `course_bounded` says all of this at every such
point.
-/

namespace MqttLink

/-- Whether an input has been found in the buffer. -/
def Input.isFound : Input → Bool
  | packet _ | decodeError _ => true
  | _ => false

namespace Endpoint

open Reaction

/-! ## How much an endpoint tells -/

/-- A move tells the application one thing at most. -/
theorem Move.events_le {now : Instant} {e : Endpoint} {d : Deed} {answer : Option Answer} {r : Reaction}
    (move : Move now e d answer r) : r.events.size ≤ 1 := by
  cases move with
  | served _ fits => cases fits <;> exact Nat.le_of_ble_eq_true rfl
  | granted _ fits => rw [fits.same_stage.2.2]; exact Nat.zero_le 1
  | ignored | deferred | welcomed | idle | denied => exact Nat.zero_le 1
  | asked | refused | ended => exact Nat.le_refl 1

theorem step_events_le {e : Endpoint} (h : NothingHeld e) (now : Instant) (input : Input) :
    (e.step now input).2.events.size ≤ 1 := by
  rcases possible_or_accept e input with single | ⟨present, rfl, able⟩
  · exact (perform_move now single).events_le
  · rw [step_welcome h now present able]
    exact Nat.zero_le 1

/-- As long as the connection is open, only packets make an endpoint tell anything. -/
theorem step_silent {e : Endpoint} (h : NothingHeld e) {now : Instant} {input : Input}
    (apart : ∀ p, input ≠ .packet p) (opened : (e.step now input).2.endpoint.isClosed = false) :
    (e.step now input).2.events = #[] := by
  have plain (same : input.IsPlain) : (e.step now input).2.events = #[] := by rw [step_plain same opened]; rfl
  cases input with
  | packet p => exact absurd rfl (apart p)
  | decodeError error => cases (e.onDecodeError_closes error).symm.trans opened
  | transportClosed => exact plain (.inl rfl)
  | timeout => exact plain (.inr (.inl rfl))
  | close => exact plain (.inr (.inr rfl))
  | action a => exact step_action_silent h now a opened

/-- Without packets, the application is told one thing at most, and nothing as long as the connection is open. -/
theorem run_silent {e : Endpoint} (h : NothingHeld e) {inputs : List (Instant × Input)}
    (apart : ∀ x ∈ inputs, ∀ p, x.2 ≠ .packet p) :
    (e.run inputs).events.size ≤ 1 ∧
      ((e.run inputs).endpoint.isClosed = false → (e.run inputs).events = #[]) := by
  induction inputs generalizing e with
  | nil => exact ⟨Nat.zero_le 1, fun _ => rfl⟩
  | cons x rest ih =>
    obtain ⟨now, input⟩ := x
    have first := apart _ List.mem_cons_self
    rw [run_cons]
    cases gone : (e.step now input).2.endpoint.isClosed with
    | true =>
      rw [andThen, run_over rest gone]
      refine ⟨by simpa [still] using step_events_le h now input, fun opened => ?_⟩
      cases gone.symm.trans opened
    | false =>
      have later := ih (step_nothingHeld h now input (.inl first)) fun x hx => apart x (List.mem_cons_of_mem _ hx)
      simpa [andThen, step_silent h first gone] using later

end Endpoint

namespace Connection

open Wire

/-! ## What a connection may hold -/

/-- How much a connection holds back: so many events as long as it is open, one more for its end, and no
packet behind CONNECT. -/
structure Bounded (capacity : Nat) (c : Connection) : Prop where
  opened : c.endpoint.isClosed = false → c.backlog.length ≤ capacity
  always : c.backlog.length ≤ capacity + 1
  nothingHeld : ∀ due held, c.endpoint.handshake = .deciding due held → held = #[]

/-- When a connection may take something from the client. -/
structure Receptive (capacity : Nat) (c : Connection) : Prop where
  opened : c.endpoint.isClosed = false
  decided : c.endpoint.isAwaitingDecision = false
  keepsUp : c.backlog.length < capacity

theorem receptive_iff {c : Connection} : Receptive c.channel.capacity c ↔ c.isReading = true := by
  rw [isReading_iff]
  exact ⟨fun h => ⟨h.opened, h.decided, h.keepsUp⟩, fun ⟨opened, decided, keepsUp⟩ => ⟨opened, decided, keepsUp⟩⟩

theorem absorb_backlog_le (c : Connection) (r : Reaction) :
    (c.absorb r).backlog.length ≤ c.backlog.length + r.events.size := by
  unfold absorb
  split <;> simp

section

variable {capacity : Nat} {c : Connection}

/-- What is not found in the buffer makes the backlog longer only if it ends the connection. -/
theorem Bounded.apart (h : Bounded capacity c) {inputs : List (Instant × Input)}
    (apart : ∀ x ∈ inputs, ∀ p, x.2 ≠ .packet p) : Bounded capacity (c.absorb (c.endpoint.run inputs)) := by
  cases gone : c.endpoint.isClosed with
  | true =>
    rw [Endpoint.run_over inputs gone, absorb_still]
    exact h
  | false =>
    have before := h.opened gone
    have more := c.absorb_backlog_le (c.endpoint.run inputs)
    obtain ⟨few, silent⟩ := Endpoint.run_silent h.nothingHeld apart
    refine ⟨fun opened => ?_, by omega, Endpoint.run_nothingHeld h.nothingHeld apart⟩
    rw [silent opened] at more
    exact Nat.le_trans more before

/-- A packet that may be taken makes the backlog longer by one event at most. -/
theorem Bounded.packet (h : Bounded capacity c) (receptive : Receptive capacity c) (p : Packet) (size : Nat) :
    Bounded capacity (c.handOver p size) := by
  have before := receptive.keepsUp
  have few : (c.endpoint.receive c.now p).events.size ≤ 1 :=
    Endpoint.step_events_le h.nothingHeld c.now (.packet p)
  have more : (c.handOver p size).backlog.length ≤ c.backlog.length + _ :=
    absorb_backlog_le { c with buffer := c.buffer.drop size } (c.endpoint.receive c.now p)
  exact ⟨fun _ => by omega, by omega,
    Endpoint.step_nothingHeld h.nothingHeld c.now (.packet p) (.inr receptive.decided)⟩

theorem Bounded.of_le {c' : Connection} (h : Bounded capacity c) (same : c'.endpoint = c.endpoint)
    (less : c'.backlog.length ≤ c.backlog.length) : Bounded capacity c' where
  opened isOpen := Nat.le_trans less (h.opened (same ▸ isOpen))
  always := Nat.le_trans less h.always
  nothingHeld := same ▸ h.nothingHeld

end

/-! ## Working off the buffer -/

theorem stamped_apart {c : Connection} {inputs : List Input} (apart : ∀ input ∈ inputs, ∀ p, input ≠ .packet p) :
    ∀ x ∈ c.stamped inputs, ∀ p, x.2 ≠ .packet p := List.forall_mem_map.2 apart

theorem absorb_nothing (c : Connection) : c.absorb (c.endpoint.run (c.stamped [])) = c := absorb_still c

/-- While the buffer is worked off, nothing is taken out of it but what may be, and the bounds are kept. -/
theorem offers_bounded (c : Connection) (h : Bounded c.channel.capacity c) {first later : List Input}
    (split : c.offers = first ++ later) :
    Bounded c.channel.capacity (c.absorb (c.endpoint.run (c.stamped first))) ∧
      (later ≠ [] → Receptive c.channel.capacity (c.absorb (c.endpoint.run (c.stamped first)))) := by
  induction c using workOff_induction generalizing first with
  | shut c reads =>
    rw [(workOff_shut reads).2] at split
    obtain ⟨rfl, rfl⟩ := List.append_eq_nil_iff.1 split.symm
    rw [absorb_nothing]
    exact ⟨h, fun more => absurd rfl more⟩
  | incomplete c reads found =>
    rw [(workOff_incomplete reads found).2] at split
    obtain ⟨rfl, rfl⟩ := List.append_eq_nil_iff.1 split.symm
    rw [absorb_nothing]
    exact ⟨h, fun more => absurd rfl more⟩
  | fault c error reads found =>
    rw [(workOff_fault reads found).2] at split
    cases first with
    | nil =>
      rw [absorb_nothing]
      exact ⟨h, fun _ => receptive_iff.2 reads⟩
    | cons input rest =>
      obtain ⟨rfl, none⟩ := List.cons.inj split
      obtain ⟨rfl, rfl⟩ := List.append_eq_nil_iff.1 none.symm
      exact ⟨h.apart (stamped_apart (by simp)), fun more => absurd rfl more⟩
  | packet c p size reads found ih =>
    have receptive := receptive_iff.2 reads
    rw [(workOff_packet reads found).2] at split
    cases first with
    | nil =>
      rw [absorb_nothing]
      exact ⟨h, fun _ => receptive⟩
    | cons input rest =>
      obtain ⟨rfl, others⟩ := List.cons.inj split
      obtain ⟨bounded, more⟩ := ih (h.packet receptive p size) others
      -- handing the packet over also takes it out of the buffer, which is not looked at here
      have same : c.absorb (c.endpoint.run (c.stamped (.packet p :: rest))) =
          { (c.handOver p size).absorb
              ((c.handOver p size).endpoint.run ((c.handOver p size).stamped rest)) with buffer := c.buffer } := by
        rw [stamped, List.map_cons, Endpoint.run_cons, absorb_andThen]
        rfl
      rw [same]
      refine ⟨bounded.of_le rfl (Nat.le_refl _), fun some => ?_⟩
      obtain ⟨opened, decided, keepsUp⟩ := more some
      exact ⟨opened, decided, keepsUp⟩

/-! ## In the middle of a deed -/

/-- The connection when it has put so much of a deed to its endpoint, but for the buffer. -/
def Leg.upTo (m : Leg) (first : List Input) : Connection :=
  (m.before.aside m.deed).absorb (m.before.endpoint.run (m.before.stamped first))

/-- At the end of a deed this is what the deed makes of the connection. -/
theorem after_upTo (m : Leg) : m.after = { m.upTo (m.before.inputsOf m.deed) with buffer := m.after.buffer } :=
  perform_eq m.before m.deed

theorem aside_backlog_le (c : Connection) (d : Deed) : (c.aside d).backlog.length ≤ c.backlog.length := by
  have moved : c.moveOldest.backlog.length ≤ c.backlog.length :=
    Nat.le_trans c.length_moveOldest (Nat.sub_le _ 1)
  cases d with
  | outside o =>
    have same : (c.meet o).backlog = c.backlog := by rw [meet_eq]
    exact Nat.le_of_eq (congrArg List.length same)
  | wake w =>
    cases w with
    | room => exact moved
    | _ => exact Nat.le_refl _
  | write => exact Nat.le_refl _
  | pass => exact moved
  | rest =>
    have same : c.windUp.backlog = c.backlog := by rw [windUp_eq]
    exact Nat.le_of_eq (congrArg List.length same)

theorem aside_capacity (c : Connection) (d : Deed) : (c.aside d).channel.capacity = c.channel.capacity := by
  rw [← c.perform_capacity d, perform_eq]
  rfl

/-- What a deed puts to the endpoint: first what does not come out of the buffer, and then, if the buffer is
worked off, what is found there. -/
theorem inputsOf_split (c : Connection) (d : Deed) :
    ∃ lead found : List Input, c.inputsOf d = lead ++ found ∧ (∀ input ∈ lead, input.isFound = false) ∧
      (found ≠ [] → (c.aside d).now = c.now ∧
        found = Connection.offers ((c.aside d).absorb (c.endpoint.run (c.stamped lead)))) := by
  cases looks : d.looks with
  | false =>
    refine ⟨c.inputsOf d, [], (List.append_nil _).symm, fun input put => ?_, fun some => absurd rfl some⟩
    obtain rfl | rfl | rfl := blind_inputs c looks put <;> rfl
  | true =>
    have alone (c' : Connection) (same : c'.endpoint = c.endpoint) :
        c'.absorb (c.endpoint.run (c.stamped [])) = c' := same ▸ absorb_still c'
    cases d with
    | wake w =>
      cases w with
      | bytes count =>
        refine ⟨[], (c.readBytes count).offers, rfl, List.forall_mem_nil _, fun _ => ⟨rfl, ?_⟩⟩
        exact congrArg offers (alone (c.readBytes count) rfl).symm
      | room =>
        refine ⟨[], c.moveOldest.offers, rfl, List.forall_mem_nil _, fun _ => ⟨?_, ?_⟩⟩
        · rw [aside, moveOldest_eq]
        · exact congrArg offers (alone c.moveOldest (by rw [moveOldest_eq])).symm
      | call =>
        refine ⟨_, c.serve.offers, rfl, fun input put => ?_, fun _ => ⟨rfl, ?_⟩⟩
        · cases waiting : c.desk.waiting with
          | nil => simp [waiting] at put
          | cons call rest => cases call <;> simp_all [Call.input, Input.isFound]
        · exact congrArg offers c.serve_eq
      | _ => cases looks
    | _ => cases looks

/-- What is put to the endpoint later meets the connection as it has become by then. -/
theorem upTo_append (m : Leg) (first later : List Input) (still : (m.before.aside m.deed).now = m.before.now) :
    m.upTo (first ++ later) =
      (m.upTo first).absorb ((m.upTo first).endpoint.run ((m.upTo first).stamped later)) := by
  simp only [Leg.upTo, stamped, List.map_append, Endpoint.run_append, absorb_andThen, absorb_now, still]
  rfl

/-- The bounds hold in the middle of a deed, and whatever it finds in the buffer it finds while it may. -/
theorem upTo_bounded (m : Leg) (h : Bounded m.before.channel.capacity m.before) {first later : List Input}
    (split : m.before.inputsOf m.deed = first ++ later) :
    Bounded m.before.channel.capacity (m.upTo first) ∧
      ∀ input, later.head? = some input → input.isFound = true →
        Receptive m.before.channel.capacity (m.upTo first) := by
  obtain ⟨lead, found, whole, unfound, offered⟩ := inputsOf_split m.before m.deed
  have same := aside_endpoint m.before m.deed
  have leading {first : List Input} (among : ∀ input ∈ first, input ∈ lead) :
      Bounded m.before.channel.capacity (m.upTo first) := by
    rw [Leg.upTo, ← same]
    refine (h.of_le same (aside_backlog_le m.before m.deed)).apart (stamped_apart fun input put p => ?_)
    rintro rfl
    cases unfound _ (among _ put)
  have working {rest later : List Input} (split : found = rest ++ later) :
      Bounded m.before.channel.capacity (m.upTo (lead ++ rest)) ∧
        (later ≠ [] → Receptive m.before.channel.capacity (m.upTo (lead ++ rest))) := by
    by_cases none : found = []
    · obtain ⟨rfl, rfl⟩ := List.append_eq_nil_iff.1 (split.symm.trans none)
      exact ⟨leading (by simp), fun more => absurd rfl more⟩
    · obtain ⟨still, offers⟩ := offered none
      have capacity : (m.upTo lead).channel.capacity = m.before.channel.capacity := aside_capacity _ _
      rw [upTo_append m lead rest still, ← capacity]
      exact offers_bounded (m.upTo lead) (capacity ▸ leading fun _ put => put) (offers.symm.trans split)
  rw [whole] at split
  rcases List.append_eq_append_iff.1 split with ⟨rest, rfl, others⟩ | ⟨rest, others, rfl⟩
  · obtain ⟨bounded, receptive⟩ := working others
    exact ⟨bounded, fun input next _ => receptive (by rintro rfl; cases next)⟩
  · cases rest with
    | nil =>
      obtain ⟨bounded, receptive⟩ := working (List.nil_append found).symm
      rw [List.append_nil] at bounded receptive others
      subst others
      exact ⟨bounded, fun input next _ => receptive (by rintro rfl; cases next)⟩
    | cons x rest =>
      subst others
      refine ⟨leading fun input put => List.mem_append_left _ put, fun input next isFound => ?_⟩
      cases next
      cases isFound.symm.trans (unfound x (List.mem_append_right _ List.mem_cons_self))

/-! ## Over a course -/

/-- The stream is read, if only to find its end, while something may be taken from the client. -/
theorem Allowed.receptive {c : Connection} {stage stage' : Stage} {d : Deed} (allowed : Allowed c stage d stage')
    (reads : c.readBy d ≠ [] ∨ d = .wake .endOfStream) : Receptive c.channel.capacity c := by
  rw [receptive_iff]
  cases allowed with
  | @wake w able =>
    cases w with
    | bytes count | endOfStream =>
      simp only [canWake, Bool.and_eq_true] at able
      exact able.2.1.1
    | _ => simp [readBy] at reads
  | _ => simp [readBy] at reads

namespace Course

variable {setup : ConnectionSetup} {past : List Leg} {stage : Stage} {c : Connection}

theorem bounded (h : Course setup past stage c) : Bounded (max setup.eventCapacity 1) c := by
  induction h with
  | start => exact ⟨fun _ => Nat.zero_le _, Nat.zero_le _, nofun⟩
  | @next past _ _ c d before allowed ih =>
    rw [← before.capacity] at ih ⊢
    have after := (upTo_bounded ⟨c, d⟩ ih (List.append_nil _).symm).1
    rw [show c.perform d = _ from after_upTo ⟨c, d⟩]
    exact after.of_le rfl (Nat.le_refl _)

/-- Each deed of the past has met a connection on its course. -/
theorem leg (h : Course setup past stage c) :
    ∀ m ∈ past, ∃ earlier stage stage',
      Course setup earlier stage m.before ∧ Allowed m.before stage m.deed stage' := by
  intro m hm
  obtain ⟨earlier, later, rfl⟩ := List.append_of_mem hm
  exact ⟨earlier, h.cut⟩

end Course

/-- **Nothing piles up.** Whatever happens, in whatever order, and at any point of a turn or of a deed: an open
connection has no more events in its backlog than the channel is large, a closed one has one more at most, and
no packet waits behind CONNECT. The stream is read, and a packet is taken out of the buffer or a fault found in
it, only while the connection is open, no decision is due and the backlog is shorter than that.

The points of a deed are those between the things that it puts to the endpoint: behind the last of them is what
the deed has made of the connection, and the packets among them are all that has left the buffer. -/
theorem course_bounded {setup : ConnectionSetup} {past : List Leg} {stage : Stage} {c : Connection}
    (h : Course setup past stage c) :
    let capacity := max setup.eventCapacity 1
    Bounded capacity c ∧
    ∀ m ∈ past,
      (m.before.readBy m.deed ≠ [] ∨ m.deed = .wake .endOfStream → Receptive capacity m.before) ∧
      (∀ first later, m.before.inputsOf m.deed = first ++ later →
        Bounded capacity (m.upTo first) ∧
        ∀ input, later.head? = some input → input.isFound = true → Receptive capacity (m.upTo first)) ∧
      m.after = { m.upTo (m.before.inputsOf m.deed) with buffer := m.after.buffer } ∧
      Peels m.before.limit (m.before.buffer ++ m.before.readBy m.deed) (packetsIn (m.before.inputsOf m.deed))
        m.after.buffer := by
  intro capacity
  refine ⟨h.bounded, fun m hm => ?_⟩
  obtain ⟨earlier, stage, stage', before, allowed⟩ := h.leg m hm
  have same : m.before.channel.capacity = capacity := before.capacity
  refine ⟨fun reads => same ▸ allowed.receptive reads, fun first later split => ?_, after_upTo m,
    m.before.perform_peels m.deed⟩
  have bounded := upTo_bounded m (same ▸ before.bounded) split
  rwa [same] at bounded

/-- The client has sent PINGREQ three times, one after the other, and then the broker shuts down. -/
def crowded : Connection :=
  along narrow
    (admitted ++
      [.clientSends [0xC0, 0x00], .clientSends [0xC0, 0x00], .clientSends [0xC0, 0x00], .signalShutdown])

/-- The third ping has not been read: the first is in the channel, the second in the backlog, and the end behind
it is the one event more. -/
theorem crowded_bounded :
    ∃ past, Course narrow past .resting crowded ∧ Bounded (max narrow.eventCapacity 1) crowded ∧
      crowded.backlog.length = max narrow.eventCapacity 1 + 1 ∧ crowded.pipe.inbox = [0xC0, 0x00] := by
  obtain ⟨past, h⟩ : Reached narrow crowded := along_reached _ _
  exact ⟨past, h, (course_bounded h).1, by decide +kernel, by decide +kernel⟩

end Connection
end MqttLink
