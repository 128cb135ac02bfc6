import MqttLink.Proofs.Connection.HeldBack
/-!
# The end of the client's stream

When the client will send no more, the connection ends; a client that has not said DISCONNECT has then
vanished, and its will is released. The read that finds the end does not look into the buffer. So every
packet that the client has sent has been handed over by then unless one has been overtaken
(`handed_at_end`), and only then can a client that did say DISCONNECT be taken for one that vanished.
-/

namespace MqttLink

open Wire

namespace Endpoint

open Reaction

theorem receive_disconnect {e : Endpoint} (now : Instant) (undecided : e.isAwaitingDecision = false) :
    (e.receive now .disconnect).endpoint.isClosed = true := by
  have move := receive_move now .disconnect e
  generalize e.receive now .disconnect = r at move
  cases move with
  | ignored gone => exact gone
  | deferred _ asked => simp [isAwaitingDecision, asked] at undecided
  | served _ fits => cases fits
  | refused _ _ => exact isClosed_ended _
  | ended _ _ => exact isClosed_ended e

/-- A client that takes its leave is not missed: its will is not released. -/
theorem Entry.disconnect_events {x : Entry} (leaves : x.input = .packet .disconnect)
    (connected : x.before.session.phase = .connected) : x.events = [.closed .graceful none] := by
  have touched : (x.before.touched x.time).isClosed = false := isClosed_connected connected
  have quits : x.before.receive x.time .disconnect = (x.before.touched x.time).closeWith .graceful := by
    simp only [receive, connected]
    rfl
  simp [events, reaction, leaves, step, quits, closeWith_open _ touched, releasedWill, CloseReason.isGraceful]

/-- The end that has been told is the only one. -/
theorem only_end {policy : Policy} {opened : Instant} {inputs : List (Instant × Input)} {event : Event}
    (told : event ∈ ((start policy opened).run inputs).events.toList) (ends : event.isEnd = true) :
    ((start policy opened).run inputs).events.toList.filter Event.isEnd = [event] := by
  have once := (course_chapter (course_moments (start policy opened) inputs)).ends_told
  rw [← moments_events] at once
  have among : event ∈ ((start policy opened).run inputs).events.toList.filter Event.isEnd :=
    List.mem_filter.2 ⟨told, ends⟩
  have few : (((start policy opened).run inputs).events.toList.filter Event.isEnd).length ≤ 1 := by
    rw [← List.countP_eq_length_filter, ← Endpoint.ends, once]
    split <;> decide
  obtain ⟨other, single⟩ := List.length_eq_one_iff.1
    (Nat.le_antisymm few (List.length_pos_of_mem among))
  rw [single] at among ⊢
  rw [List.mem_singleton.1 among]

end Endpoint

namespace Connection

theorem workOff_disconnect (c : Connection) (leaves : .disconnect ∈ packetsIn c.offers) :
    c.workOff.endpoint.isClosed = true := by
  induction c using workOff_induction with
  | shut c reads => simp [(workOff_shut reads).2, packetsIn] at leaves
  | incomplete c reads h => simp [(workOff_incomplete reads h).2, packetsIn] at leaves
  | fault c error reads h => simp [(workOff_fault reads h).2, packetsIn] at leaves
  | packet c p size reads h ih =>
    obtain ⟨same, more⟩ := workOff_packet reads h
    rw [same]
    rw [more] at leaves
    rcases List.mem_cons.1 leaves with rfl | later
    · have gone : (c.handOver .disconnect size).endpoint.isClosed = true :=
        Endpoint.receive_disconnect c.now (isReading_iff.1 reads).2.1
      rw [(workOff_shut (isReading_closed gone)).1]
      exact gone
    · exact ih later

/-- **DISCONNECT ends the connection** at once, whenever it is handed over. -/
theorem Course.disconnect_closed {setup : ConnectionSetup} {past : List Leg} {stage : Stage}
    {c : Connection} (h : Course setup past stage c) (leaves : .disconnect ∈ handed past) :
    c.endpoint.isClosed = true := by
  induction h with
  | start => cases leaves
  | @next past _ _ c d before allowed ih =>
    rw [handed_snoc] at leaves
    rcases List.mem_append.1 leaves with earlier | now
    · exact perform_closed d (ih earlier)
    · cases looks : d.looks with
      | true =>
        obtain ⟨c', same, found, -⟩ := looks_workOff (c := c) looks
        rw [same]
        exact workOff_disconnect c' (found ▸ now)
      | false =>
        rw [blind_packets c looks] at now
        cases now

/-- All that the client has sent, once everything has been read: what has been handed over, and what stands
in the buffer. -/
theorem Course.unpack_sent {setup : ConnectionSetup} {past : List Leg} {stage : Stage} {c : Connection}
    (h : Course setup past stage c) (nothing : c.pipe.inbox = []) :
    ∃ later, (unpack c.limit (Connection.sent past)).packets.toList = handed past ++ later ∧
      (later ≠ [] ↔ ∃ p size, decode c.limit c.buffer = .packet p size) := by
  obtain ⟨later, rest, fault, peels, stops⟩ := peels_ending c.limit c.buffer
  refine ⟨later, ?_, peels.some_iff stops⟩
  rw [h.sent, nothing, List.append_nil, unpack_peels (h.peels.trans peels) stops]

/-- **Every packet that the client has sent has been handed over** when its stream is found to end, unless
a flush has overtaken one. The connection is closed then for its transport; what has been handed over is
where the packets in all that the client has sent begin; if that is not all of them, or if there is a
DISCONNECT among them, one has been overtaken. And whenever an accepted client's DISCONNECT is handed over,
the end that the application is told is the graceful one, without the will. -/
theorem handed_at_end {setup : ConnectionSetup} {past : List Leg} {c : Connection}
    (h : Course setup past .resting c) :
    (c.canWake .endOfStream = true →
      let all := (unpack c.limit (sent past)).packets.toList
      c.react .endOfStream =
        c.absorb ⟨c.endpoint.ended, #[],
          #[.closed .transportClosed (c.endpoint.releasedWill .transportClosed)]⟩ ∧
      handed past <+: all ∧
      (handed past = all ↔ ¬ (Overtaken past ∧ ∃ p size, decode c.limit c.buffer = .packet p size)) ∧
      (.disconnect ∈ all → Overtaken past)) ∧
    ∀ x ∈ (Endpoint.start setup.policy 0).log (inputs past), x.input = .packet .disconnect →
      x.before.session.phase = .connected →
      ((Endpoint.start setup.policy 0).run (inputs past)).events.toList.filter Event.isEnd =
        [.closed .graceful none] := by
  constructor
  · intro able all
    obtain ⟨-, ⟨reads, nothing⟩, -⟩ :
        c.finished = false ∧ (c.isReading = true ∧ c.pipe.inbox = []) ∧ c.pipe.ended = true := by
      simpa [canWake] using able
    have opened : c.endpoint.isClosed = false := (isReading_iff.1 reads).1
    obtain ⟨later, whole, left⟩ := h.unpack_sent nothing
    have overtaken : later ≠ [] → Overtaken past := by
      intro some
      obtain ⟨p, size, found⟩ := left.1 some
      exact h.found_overtaken reads (by simp [found])
    have missing : handed past = all ↔ later = [] := by simp [all, whole]
    refine ⟨?_, ⟨later, whole.symm⟩, ?_, ?_⟩
    · rw [react, Endpoint.onTransportClosed, Endpoint.closeWith_open _ opened]
    · rw [missing, ← left]
      constructor
      · rintro none ⟨-, some⟩
        exact some none
      · intro kept
        exact Classical.byContradiction fun some => kept ⟨overtaken some, some⟩
    · intro leaves
      refine overtaken fun none => ?_
      rw [← missing.2 none] at leaves
      rw [h.disconnect_closed leaves] at opened
      cases opened
  · intro x hx leaves connected
    refine Endpoint.only_end ?_ rfl
    rw [Endpoint.log_events, List.mem_flatMap]
    exact ⟨x, hx, by rw [Endpoint.Entry.disconnect_events leaves connected]; exact List.mem_singleton_self _⟩

/-- The client has sent PINGREQ and DISCONNECT at once, and nothing more will come. -/
def leaving : Connection :=
  (along narrow (admitted ++ [.clientSends [0xC0, 0x00, 0xE0, 0x00]])).meet .clientEnds

theorem leaving_unheard :
    ∃ past, Course narrow past .resting leaving ∧ leaving.canWake .endOfStream = true ∧
      handed past ≠ (unpack leaving.limit (sent past)).packets.toList := by
  obtain ⟨past, h⟩ : Reached narrow leaving := (along_reached _ _).outside _
  have able : leaving.canWake .endOfStream = true := by decide +kernel
  have found : decode leaving.limit leaving.buffer = .packet .disconnect 2 := by decide +kernel
  obtain ⟨-, -, complete, -⟩ := (handed_at_end h).1 able
  refine ⟨past, h, able, fun all => complete.1 all ⟨?_, _, _, found⟩⟩
  exact h.found_overtaken (by decide +kernel) (by simp [found])

/-- **The will of a client that has said DISCONNECT is released**: the ping before it filled the backlog,
the flush emptied it into the channel, and the end of the stream is found before the buffer is looked at
again. -/
theorem leaving_missed :
    Reached narrow leaving.settle ∧
      (unpack leaving.limit (greeting ++ [0xC0, 0x00, 0xE0, 0x00])).packets.toList.tail =
        [.pingreq, .disconnect] ∧
      leaving.settle.channel.queue ++ leaving.settle.backlog =
        [.ping, .closed .transportClosed (some ⟨"w", [0x78], .atMostOnce, false⟩)] :=
  ⟨((along_reached _ _).outside _).settle, by decide +kernel, by decide +kernel⟩

end Connection
end MqttLink
