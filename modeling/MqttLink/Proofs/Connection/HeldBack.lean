import MqttLink.Proofs.Connection.Traffic
/-!
# Packets that are held back

While the application is behind on events, packets wait in the buffer. They are looked at again when
bytes come, when the oldest event of the backlog can leave it, and when a call has been served. But the
flush at the end of a turn also moves events out of the backlog, and does not look. If it is what makes
room, the packets that were held back are overtaken by it, and stay where they are until one of the three
comes about (`Overtaken`). Nothing else ever leaves a packet behind (`nothing_held_back_iff`).
-/

namespace MqttLink

open Wire

namespace Endpoint

open Reaction

/-- Such an input ends the connection or changes nothing. -/
theorem step_plain {e : Endpoint} {now : Instant} {input : Input} (plain : input.IsPlain)
    (opened : (e.step now input).2.endpoint.isClosed = false) : (e.step now input).2 = still e := by
  obtain rfl | rfl | rfl := plain
  · exact absurd (e.closeWith_closes .transportClosed) (by rw [Bool.not_eq_true]; exact opened)
  · have move := onTimeout_move now e
    change (e.onTimeout now).endpoint.isClosed = false at opened
    change e.onTimeout now = still e
    generalize e.onTimeout now = r at opened move
    cases move with
    | ignored _ => rfl
    | idle _ => rfl
    | refused _ _ => rw [isClosed_ended] at opened; cases opened
    | ended _ _ => rw [isClosed_ended] at opened; cases opened
  · exact absurd (e.closeWith_closes .applicationClosed) (by rw [Bool.not_eq_true]; exact opened)

theorem run_plain {e : Endpoint} {inputs : List (Instant × Input)} (plain : ∀ x ∈ inputs, x.2.IsPlain)
    (opened : (e.run inputs).endpoint.isClosed = false) : e.run inputs = still e := by
  induction inputs generalizing e with
  | nil => rfl
  | cons x rest ih =>
    obtain ⟨now, input⟩ := x
    rw [run_cons] at opened ⊢
    have first : (e.step now input).2.endpoint.isClosed = false := by
      cases gone : (e.step now input).2.endpoint.isClosed with
      | false => rfl
      | true =>
        rw [andThen, run_over rest gone] at opened
        exact absurd gone (by rw [Bool.not_eq_true]; exact opened)
    have same := step_plain (plain _ List.mem_cons_self) first
    rw [same, still_andThen] at opened ⊢
    exact ih (fun x hx => plain x (List.mem_cons_of_mem _ hx)) opened

end Endpoint

namespace Connection

/-! ## Deeds that do not look into the buffer -/

/-- A deed that neither looks into the buffer nor ends the connection leaves the endpoint alone. -/
theorem blind_perform {c : Connection} {d : Deed} (blind : d.looks = false)
    (opened : (c.perform d).endpoint.isClosed = false) :
    (c.perform d).endpoint = c.endpoint ∧ (c.perform d).backlog = (c.aside d).backlog := by
  have plain : ∀ x ∈ c.stamped (c.inputsOf d), x.2.IsPlain :=
    List.forall_mem_map.2 fun _ put => blind_inputs c blind put
  rw [perform_endpoint] at opened
  have same := Endpoint.run_plain plain opened
  have kept : c.perform d = { c.aside d with buffer := (c.perform d).buffer } := by
    rw [perform_eq, same, ← aside_endpoint c d]
    exact absorb_still _
  rw [kept]
  exact ⟨aside_endpoint c d, rfl⟩

/-- Only passing an event on can make room in a full backlog. -/
theorem blind_reading {c : Connection} {d : Deed} (blind : d.looks = false) (other : d ≠ .pass)
    (reads : (c.perform d).isReading = true) : c.isReading = true := by
  obtain ⟨opened, decided, keepsUp⟩ := isReading_iff.1 reads
  obtain ⟨same, backlog⟩ := blind_perform blind opened
  have kept : (c.aside d).backlog = c.backlog := by
    cases d with
    | outside o => rw [aside, meet_eq]
    | wake w =>
      cases w with
      | bytes count | room | call => cases blind
      | _ => rfl
    | write => rfl
    | pass => exact absurd rfl other
    | rest => rw [aside, windUp_eq]
  rw [same] at opened decided
  rw [backlog, kept, perform_capacity] at keepsUp
  exact isReading_iff.2 ⟨opened, decided, keepsUp⟩

/-! ## Since when a packet is held back -/

/-- Whether the application is too far behind for packets to be read. -/
def isBackedUp (c : Connection) : Bool := c.channel.capacity ≤ c.backlog.length

/-- A flush has made room in a full backlog although something could be read from the buffer, and since
then nothing has made the connection look into it. -/
def Overtaken (past : List Leg) : Prop :=
  ∃ earlier m later, past = earlier ++ m :: later ∧ m.deed = .pass ∧
    m.before.isBackedUp = true ∧ m.after.isBackedUp = false ∧
    decode m.before.limit m.before.buffer ≠ .incomplete ∧ ∀ x ∈ later, x.deed.looks = false

theorem not_overtaken_nil : ¬ Overtaken [] := by
  rintro ⟨earlier, m, later, split, -⟩
  simp at split

theorem overtaken_snoc {past : List Leg} {x : Leg} :
    Overtaken (past ++ [x]) ↔
      (x.deed = .pass ∧ x.before.isBackedUp = true ∧ x.after.isBackedUp = false ∧
        decode x.before.limit x.before.buffer ≠ .incomplete) ∨
      Overtaken past ∧ x.deed.looks = false := by
  constructor
  · rintro ⟨earlier, m, later, split, pass, full, room, found, blind⟩
    rcases List.eq_nil_or_concat later with rfl | ⟨later, last, rfl⟩
    · obtain ⟨-, same⟩ := List.append_inj' split rfl
      cases same
      exact .inl ⟨pass, full, room, found⟩
    · rw [List.concat_eq_append, ← List.cons_append, ← List.append_assoc] at split
      obtain ⟨same, last⟩ := List.append_inj' split rfl
      cases last
      rw [List.concat_eq_append] at blind
      refine .inr ⟨⟨earlier, m, later, same, pass, full, room, found, ?_⟩, blind x (by simp)⟩
      exact fun y hy => blind y (List.mem_append_left _ hy)
  · rintro (⟨pass, full, room, found⟩ | ⟨⟨earlier, m, later, rfl, pass, full, room, found, blind⟩, last⟩)
    · exact ⟨past, x, [], rfl, pass, full, room, found, List.forall_mem_nil _⟩
    · refine ⟨earlier, m, later ++ [x], by simp, pass, full, room, found, ?_⟩
      intro y hy
      rcases List.mem_append.1 hy with hy | hy
      · exact blind y hy
      · rw [List.mem_singleton.1 hy]
        exact last

/-- What has been overtaken is still there. -/
theorem Course.overtaken_found {setup : ConnectionSetup} {past : List Leg} {stage : Stage} {c : Connection}
    (h : Course setup past stage c) (overtaken : Overtaken past) :
    decode c.limit c.buffer ≠ .incomplete := by
  induction h with
  | start => exact absurd overtaken not_overtaken_nil
  | @next past _ _ c d before allowed ih =>
    rw [perform_limit]
    rcases overtaken_snoc.1 overtaken with ⟨pass, -, -, found⟩ | ⟨overtaken, blind⟩
    · rw [blind_buffer c (by rw [show d = .pass from pass]; rfl)]
      exact found
    · rw [blind_buffer c blind]
      exact ih overtaken

/-- Nothing is left behind in any other way. -/
theorem Course.found_overtaken {setup : ConnectionSetup} {past : List Leg} {stage : Stage} {c : Connection}
    (h : Course setup past stage c) (reads : c.isReading = true)
    (found : decode c.limit c.buffer ≠ .incomplete) : Overtaken past := by
  induction h with
  | start => exact absurd rfl found
  | @next past _ _ c d before allowed ih =>
    cases blind : d.looks with
    | true => exact absurd (looks_stops blind reads) found
    | false =>
      rw [perform_limit, blind_buffer c blind] at found
      by_cases passes : d = .pass
      · subst passes
        cases full : c.isBackedUp with
        | false =>
          have before : c.isReading = true := by
            obtain ⟨opened, decided, -⟩ := isReading_iff.1 reads
            rw [perform, moveOldest_eq] at opened decided
            exact isReading_iff.2 ⟨opened, decided, by simpa [isBackedUp] using full⟩
          exact overtaken_snoc.2 (.inr ⟨ih before found, rfl⟩)
        | true =>
          have room : (c.perform .pass).isBackedUp = false := by
            simpa [isBackedUp] using (isReading_iff.1 reads).2.2
          exact overtaken_snoc.2 (.inl ⟨rfl, full, room, found⟩)
      · exact overtaken_snoc.2 (.inr ⟨ih (blind_reading blind passes reads) found, blind⟩)

/-- **Nothing is held back** from a connection that could read it, whatever happens and in whatever order,
unless a flush has overtaken it: then, and only then, a packet or a fault is left in the buffer of a
connection that is open, has no decision to wait for and is not behind on events. Otherwise every packet
there is in what has been read has been handed to the endpoint, and the rest is less than a packet. -/
theorem nothing_held_back_iff {setup : ConnectionSetup} {past : List Leg} {stage : Stage} {c : Connection}
    (h : Course setup past stage c) (opened : c.endpoint.isClosed = false)
    (decided : c.endpoint.isAwaitingDecision = false)
    (keepsUp : c.backlog.length < max setup.eventCapacity 1) :
    (decode c.limit c.buffer = .incomplete ↔ ¬ Overtaken past) ∧
    (¬ Overtaken past → unpack c.limit (received past) = ⟨(handed past).toArray, c.buffer, none⟩) := by
  have reads : c.isReading = true := isReading_iff.2 ⟨opened, decided, h.capacity ▸ keepsUp⟩
  have found : Overtaken past ↔ decode c.limit c.buffer ≠ .incomplete :=
    ⟨h.overtaken_found, h.found_overtaken reads⟩
  have same : decode c.limit c.buffer = .incomplete ↔ ¬ Overtaken past := by
    rw [found, Classical.not_not]
  refine ⟨same, fun never => ?_⟩
  have stops : decode c.limit c.buffer = ending none := same.2 never
  exact unpack_peels h.peels stops

/-- CONNECT of a client with a will. -/
def greeting : Bytes :=
  [0x10, 0x13, 0x00, 0x04, 0x4D, 0x51, 0x54, 0x54, 0x04, 0x06, 0x00, 0x00, 0x00, 0x01, 0x63, 0x00, 0x01,
    0x77, 0x00, 0x01, 0x78]

/-- The application can be one event behind. -/
def narrow : ConnectionSetup := ⟨⟨none, none, true⟩, 1048576, 1⟩

/-- The client is let in. -/
def admitted : List Outside := [.clientSends greeting, .takeEvent, .request (.accept false)]

/-- It has sent PINGREQ twice, at once. -/
def pinged : Connection := along narrow (admitted ++ [.clientSends [0xC0, 0x00, 0xC0, 0x00]])

theorem pinged_found : decode pinged.limit pinged.buffer = .packet .pingreq 2 := by decide +kernel

/-- **The second ping is not answered**, although nothing stands in its way and nothing can wake the
connection: the first filled the backlog, and the flush has emptied it into the channel. -/
theorem pinged_idle :
    Reached narrow pinged ∧ (∀ w, pinged.canWake w = false) ∧ pinged.endpoint.isClosed = false ∧
      pinged.endpoint.isAwaitingDecision = false ∧ pinged.backlog.length < max narrow.eventCapacity 1 ∧
      decode pinged.limit pinged.buffer = .packet .pingreq 2 :=
  ⟨along_reached _ _, asleep (by decide +kernel), by decide +kernel, by decide +kernel, by decide +kernel, pinged_found⟩

theorem pinged_overtaken : ∃ past, Course narrow past .resting pinged ∧ Overtaken past := by
  obtain ⟨past, h⟩ : Reached narrow pinged := along_reached _ _
  have whenever := (nothing_held_back_iff h (by decide +kernel) (by decide +kernel) (by decide +kernel)).1
  refine ⟨past, h, Classical.byContradiction fun never => ?_⟩
  have found := pinged_found
  rw [whenever.2 never] at found
  cases found

end Connection
end MqttLink
