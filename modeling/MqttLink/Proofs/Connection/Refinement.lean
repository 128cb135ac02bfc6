import MqttLink.Proofs.Connection.HeldBack
import MqttLink.Proofs.Wire.Written
/-!
# A connection is an endpoint between two byte streams

However a connection is woken, and in whatever pieces bytes come in, it does what one serial run of its
endpoint does. The packets that the endpoint is given are those that the bytes read so far begin with, and
what the client is sent are the packets that the endpoint has queued, each whole and in order
(`course_refines`). The second holds at the end of every flush, as long as the client is there when
something is written to it.
-/

namespace MqttLink

open Wire

namespace Endpoint

open Reaction

/-- Nothing is said to the client when a connection is closed without its asking. -/
theorem run_closing {e : Endpoint} {inputs : List (Instant × Input)}
    (closing : ∀ x ∈ inputs, x.2 = .close ∨ x.2 = .transportClosed) : (e.run inputs).packets = #[] := by
  have silent (e : Endpoint) (reason : CloseReason) : (e.closeWith reason).packets = #[] := by
    cases gone : e.isClosed with
    | true => rw [closeWith_over reason gone]; rfl
    | false => rw [closeWith_open reason gone]
  induction inputs generalizing e with
  | nil => rfl
  | cons x rest ih =>
    obtain ⟨now, input⟩ := x
    have first : (e.step now input).2.packets = #[] := by
      rcases closing _ List.mem_cons_self with same | same <;> cases same <;> exact silent e _
    have later := ih (e := (e.step now input).2.endpoint) fun x hx => closing x (List.mem_cons_of_mem _ hx)
    rw [run_cons, andThen, first, later]
    rfl

end Endpoint

namespace Connection

/-! ## What is written -/

theorem writeNext_bytes (written : Bytes × Option EncodeError) (p : Packet) :
    (writeNext written p).1 = written.1 ++ p.encoding := by
  rcases p.write_encode with ⟨-, whole⟩ | ⟨e, started, -, nothing, partly⟩
  · rw [writeNext, whole]
  · rw [writeNext, partly, nothing, List.append_nil]
    exact List.take_left

/-- The packets of a flush are written one behind the other; one that cannot be written adds nothing. -/
theorem encodeAll_bytes (packets : List Packet) :
    (encodeAll packets).1 = packets.flatMap Packet.encoding := by
  have behind (written : Bytes × Option EncodeError) :
      (packets.foldl writeNext written).1 = written.1 ++ packets.flatMap Packet.encoding := by
    induction packets generalizing written with
    | nil => exact (List.append_nil _).symm
    | cons p packets ih =>
      rw [List.foldl_cons, ih, writeNext_bytes, List.append_assoc, List.flatMap_cons]
  exact behind ([], none)

/-- The bytes that the client takes with a deed. -/
def collectedBy (c : Connection) : Deed → Bytes
  | .outside .clientCollects => c.pipe.collect.1
  | _ => []

/-- Whether this is a write that fails: the client is not there any more. -/
def Leg.breaks (m : Leg) : Bool :=
  match m.deed with
  | .write => m.before.pipe.gone && !(encodeAll m.before.unsent.toList).1.isEmpty
  | _ => false

/-- A client that has gone does not come back. -/
theorem perform_gone {c : Connection} {d : Deed} (there : (c.perform d).pipe.gone = false) :
    c.pipe.gone = false := by
  rw [perform_pipe] at there
  cases d with
  | outside o =>
    cases o with
    | clientSends bytes => rw [aside, meet_clientSends] at there; exact there
    | request action => rw [aside, meet_request] at there; exact there
    | requestClose => rw [aside, meet_requestClose] at there; exact there
    | clientLeaves => cases there
    | _ => exact there
  | wake w =>
    cases w with
    | room => rw [aside, moveOldest_eq] at there; exact there
    | _ => exact there
  | write => rw [aside, writeOut_pipe] at there; exact there
  | pass => rw [aside, moveOldest_eq] at there; exact there
  | rest => rw [aside, windUp_pipe] at there; exact there

/-- **No byte is lost on the way to the client.** -/
theorem perform_outbox {c : Connection} {d : Deed} (there : (c.perform d).pipe.gone = false) :
    c.pipe.outbox ++ c.writtenBy d = c.collectedBy d ++ (c.perform d).pipe.outbox := by
  have untouched {pipe : Pipe} (same : pipe.outbox = c.pipe.outbox) :
      c.pipe.outbox ++ [] = [] ++ pipe.outbox := by simp [same]
  rw [perform_pipe] at there ⊢
  cases d with
  | outside o =>
    cases o with
    | clientSends bytes => exact untouched (by rw [aside, meet_clientSends])
    | request action => exact untouched (by rw [aside, meet_request])
    | requestClose => exact untouched (by rw [aside, meet_requestClose])
    | clientCollects => rfl
    | clientLeaves => cases there
    | _ => exact untouched rfl
  | wake w =>
    cases w with
    | room => exact untouched (by rw [aside, moveOldest_eq])
    | _ => exact untouched rfl
  | write => rw [aside, writeOut_pipe]; rfl
  | pass => exact untouched (by rw [aside, moveOldest_eq])
  | rest => exact untouched (by rw [aside, windUp_pipe])

/-- What the client has not taken when it leaves is lost, and nothing is written after that. -/
theorem perform_left {c : Connection} {d : Deed} (left : (c.perform d).pipe.gone = true) :
    c.collectedBy d ++ (c.perform d).pipe.outbox <+: c.pipe.outbox := by
  have untouched {pipe : Pipe} (same : pipe.outbox = c.pipe.outbox) : [] ++ pipe.outbox <+: c.pipe.outbox := by
    rw [same]
    exact List.prefix_rfl
  rw [perform_pipe] at left ⊢
  cases d with
  | outside o =>
    cases o with
    | clientSends bytes => exact untouched (by rw [aside, meet_clientSends])
    | request action => exact untouched (by rw [aside, meet_request])
    | requestClose => exact untouched (by rw [aside, meet_requestClose])
    | clientCollects => exact (List.append_nil c.pipe.outbox).symm ▸ List.prefix_rfl
    | clientLeaves => exact List.nil_prefix
    | _ => exact untouched rfl
  | wake w =>
    cases w with
    | room => exact untouched (by rw [aside, moveOldest_eq])
    | _ => exact untouched rfl
  | write =>
    rw [aside, writeOut_pipe] at left ⊢
    have none : c.writtenBy .write = [] := if_pos left
    exact untouched (by rw [none, List.append_nil])
  | pass => exact untouched (by rw [aside, moveOldest_eq])
  | rest => exact untouched (by rw [aside, windUp_pipe])

/-! ## What is still to be written -/

theorem perform_unsent (c : Connection) (d : Deed) :
    (c.perform d).unsent =
      (c.aside d).unsent ++ (c.endpoint.run (c.stamped (c.inputsOf d))).packets := by rw [perform_eq]; rfl

theorem aside_unsent {d : Deed} (c : Connection) (other : d ≠ .write) : (c.aside d).unsent = c.unsent := by
  cases d with
  | outside o => rw [aside, meet_eq]
  | wake w =>
    cases w with
    | room => rw [aside, moveOldest_eq]
    | _ => rfl
  | write => exact absurd rfl other
  | pass => rw [aside, moveOldest_eq]
  | rest => rw [aside, windUp_eq]

/-- A write that goes through writes all that was to be written. -/
theorem aside_written {c : Connection} {d : Deed} (taken : (Leg.mk c d).breaks = false) :
    c.writtenBy d ++ (c.aside d).unsent.toList.flatMap Packet.encoding =
      c.unsent.toList.flatMap Packet.encoding := by
  by_cases writes : d = .write
  · subst writes
    rw [← encodeAll_bytes c.unsent.toList]
    simp only [writtenBy, aside, List.flatMap_nil, List.append_nil]
    split
    · rename_i gone
      simpa [Leg.breaks, gone] using taken.symm
    · rfl
  · have nothing : c.writtenBy d = [] := by
      cases d with
      | write => exact absurd rfl writes
      | _ => rfl
    rw [nothing, aside_unsent c writes, List.nil_append]

/-- A deed that puts nothing to the endpoint gives it nothing to say. -/
theorem still_unsent {c : Connection} {d : Deed} (other : d ≠ .write) (still : c.inputsOf d = []) :
    (c.perform d).unsent = c.unsent := by
  rw [perform_unsent, still, aside_unsent c other]
  exact Array.append_empty

theorem writeOut_unsent (c : Connection) : c.writeOut.unsent = #[] := by
  have closing : ∀ x ∈ c.stamped (c.inputsOf .write), x.2 = .close ∨ x.2 = .transportClosed := by
    refine List.forall_mem_map.2 fun input put => ?_
    rcases List.mem_append.1 put with put | put <;> split at put <;> simp_all
  have written := c.perform_unsent .write
  rw [Endpoint.run_closing closing] at written
  exact written

/-! ## What is no packet -/

/-- Bytes that are no packet are the last thing that is found in the buffer, and they stay there. -/
theorem workOff_unreadable {c : Connection} {earlier later : List Input} {error : DecodeError}
    (split : c.offers = earlier ++ .decodeError error :: later) :
    later = [] ∧ decode c.limit c.workOff.buffer = .fault error ∧ c.workOff.endpoint.isClosed = true := by
  induction c using workOff_induction generalizing earlier with
  | shut c reads => simp [(workOff_shut reads).2] at split
  | incomplete c reads h => simp [(workOff_incomplete reads h).2] at split
  | fault c found reads h =>
    obtain ⟨ends, one⟩ := workOff_fault reads h
    rw [one, List.singleton_eq_append_iff] at split
    simp only [List.cons.injEq, Input.decodeError.injEq, reduceCtorEq, and_false, or_false] at split
    obtain ⟨-, rfl, rfl⟩ := split
    rw [ends]
    exact ⟨rfl, h, c.endpoint.onDecodeError_closes _⟩
  | packet c p size reads h ih =>
    obtain ⟨same, more⟩ := workOff_packet reads h
    rw [more] at split
    cases earlier with
    | nil => cases split
    | cons first earlier =>
      rw [same]
      exact ih (List.cons.inj split).2

theorem perform_unreadable {c : Connection} {d : Deed} {earlier later : List Input} {error : DecodeError}
    (split : c.inputsOf d = earlier ++ .decodeError error :: later) :
    later = [] ∧ decode c.limit (c.perform d).buffer = .fault error ∧
      (c.perform d).endpoint.isClosed = true := by
  cases looks : d.looks with
  | false =>
    have plain : (Input.decodeError error).IsPlain := blind_inputs c looks (by rw [split]; simp)
    simp [Input.IsPlain] at plain
  | true =>
    cases d with
    | wake w =>
      cases w with
      | bytes count => exact workOff_unreadable (c := c.readBytes count) split
      | room =>
        have limit : c.moveOldest.limit = c.limit := by rw [moveOldest_eq]
        rw [← limit]
        exact workOff_unreadable (c := c.moveOldest) split
      | call =>
        have limit : c.serve.limit = c.limit := by rw [serve_eq]; rfl
        rw [← limit]
        cases waiting : c.desk.waiting with
        | nil =>
          simp only [inputsOf, waiting] at split
          exact workOff_unreadable (c := c.serve) split
        | cons call rest =>
          simp only [inputsOf, waiting] at split
          -- what a call puts to the endpoint comes first, and is no fault
          cases earlier with
          | nil => cases call <;> cases split
          | cons first earlier => exact workOff_unreadable (c := c.serve) (List.cons.inj split).2
      | _ => cases looks
    | _ => cases looks

/-- Nothing is read once the endpoint is closed. -/
theorem closed_unread {c : Connection} {stage stage' : Stage} {d : Deed} (gone : c.endpoint.isClosed = true)
    (allowed : Allowed c stage d stage') :
    packetsIn (c.inputsOf d) = [] ∧ (c.perform d).buffer = c.buffer := by
  cases looks : d.looks with
  | false => exact ⟨blind_packets c looks, blind_buffer c looks⟩
  | true =>
    have nothing : c.readBy d = [] := by
      cases allowed with
      | @wake w able =>
        cases w with
        | bytes count => simp [canWake, isReading_closed gone] at able
        | _ => rfl
      | _ => cases looks
    obtain ⟨c', same, found, -, filled, kept⟩ := looks_workOff (c := c) looks
    obtain ⟨whole, none⟩ : c'.workOff = c' ∧ c'.offers = [] :=
      workOff_shut (isReading_closed (by rw [kept gone]; exact gone))
    rw [same, found, whole, none, filled, nothing, List.append_nil]
    exact ⟨rfl, rfl⟩

/-! ## Over a course -/

/-- What has been written to the client. -/
def written (past : List Leg) : Bytes := past.flatMap fun m => m.before.writtenBy m.deed

/-- What the client has taken of it. -/
def collected (past : List Leg) : Bytes := past.flatMap fun m => m.before.collectedBy m.deed

namespace Course

variable {setup : ConnectionSetup} {past : List Leg} {stage : Stage} {c : Connection}

/-- A client that is still there has been there all along. -/
theorem unbroken (h : Course setup past stage c) (there : c.pipe.gone = false) :
    ∀ m ∈ past, m.breaks = false := by
  induction h with
  | start => exact List.forall_mem_nil _
  | @next past _ _ c d before allowed ih =>
    have earlier : c.pipe.gone = false := perform_gone there
    intro m hm
    rcases List.mem_append.1 hm with hm | hm
    · exact ih earlier m hm
    · rw [List.mem_singleton.1 hm]
      cases d <;> simp [Leg.breaks, earlier]

/-- **What has been written is what the client has taken and what it has not.** -/
theorem collected (h : Course setup past stage c) (there : c.pipe.gone = false) :
    written past = collected past ++ c.pipe.outbox := by
  induction h with
  | start => rfl
  | @next past _ _ c d before allowed ih =>
    simp only [written, Connection.collected, List.flatMap_append, List.flatMap_singleton] at ih ⊢
    rw [ih (perform_gone there), List.append_assoc, perform_outbox there, List.append_assoc]

/-- Nothing is left to be written except in a turn that has not come to it yet. -/
theorem unsent (h : Course setup past stage c) (flushed : stage ≠ .reacted) : c.unsent = #[] := by
  induction h with
  | start => exact absurd rfl flushed
  | @next past _ _ c d before allowed ih =>
    cases allowed with
    | outside _ o => exact (still_unsent (by simp) rfl).trans (ih flushed)
    | wake _ => exact absurd rfl flushed
    | write => exact c.writeOut_unsent
    | pass _ => exact (still_unsent (by simp) rfl).trans (ih flushed)
    | rest _ => exact (still_unsent (by simp) rfl).trans (ih (by simp))

/-- What the endpoint queues with one more deed. -/
theorem queued (h : Course setup past stage c) (d : Deed) :
    ((Endpoint.start setup.policy 0).run (inputs (past ++ [⟨c, d⟩]))).packets =
      ((Endpoint.start setup.policy 0).run (inputs past)).packets ++
        (c.endpoint.run (c.stamped (c.inputsOf d))).packets := by
  rw [inputs_snoc, Endpoint.run_append, h.endpoint]
  rfl

/-- **The packets that the endpoint has queued are written or still to be written**, in order. -/
theorem written (h : Course setup past stage c) (taken : ∀ m ∈ past, m.breaks = false) :
    Connection.written past ++ c.unsent.toList.flatMap Packet.encoding =
      ((Endpoint.start setup.policy 0).run (inputs past)).packets.toList.flatMap Packet.encoding := by
  induction h with
  | start => rfl
  | @next past _ _ c d before allowed ih =>
    have earlier := ih fun m hm => taken m (List.mem_append_left _ hm)
    have last := aside_written (taken ⟨c, d⟩ (List.mem_append_right _ List.mem_cons_self))
    rw [before.queued d, perform_unsent, Connection.written, List.flatMap_append, List.flatMap_singleton,
      ← Connection.written, Array.toList_append, Array.toList_append, List.flatMap_append, List.flatMap_append,
      ← earlier, ← last]
    simp only [List.append_assoc]

/-- **Nothing comes to the client but what the endpoint has queued**, in order and from the first packet on,
also if it leaves in between. -/
theorem arrived (h : Course setup past stage c) :
    Connection.collected past ++ c.pipe.outbox <+:
      ((Endpoint.start setup.policy 0).run (inputs past)).packets.toList.flatMap Packet.encoding := by
  induction h with
  | start => exact List.nil_prefix
  | @next past _ _ c d before allowed ih =>
    have whole := before.next d allowed
    cases left : (c.perform d).pipe.gone with
    | false =>
      rw [← whole.collected left, ← whole.written (whole.unbroken left)]
      exact List.prefix_append _ _
    | true =>
      rw [before.queued d, Array.toList_append, List.flatMap_append, Connection.collected, List.flatMap_append,
        List.flatMap_singleton, ← Connection.collected, List.append_assoc]
      refine ((List.prefix_append_right_inj _).2 (perform_left left)).trans ?_
      exact ih.trans (List.prefix_append _ _)

/-- **What is found to be no packet stays in the buffer**, and no packet is read after it. -/
theorem unreadable (h : Course setup past stage c) {earlier later : List (Instant × Input)} {now : Instant}
    {error : DecodeError} (split : inputs past = earlier ++ (now, .decodeError error) :: later) :
    packetsIn (later.map Prod.snd) = [] ∧ decode c.limit c.buffer = .fault error ∧
      c.endpoint.isClosed = true := by
  induction h generalizing earlier later with
  | start => simp [inputs] at split
  | @next past _ _ c d before allowed ih =>
    rw [perform_limit]
    have fresh (front : List (Instant × Input))
        (split : c.stamped (c.inputsOf d) = front ++ (now, .decodeError error) :: later) :
        packetsIn (later.map Prod.snd) = [] ∧ decode c.limit (c.perform d).buffer = .fault error ∧
          (c.perform d).endpoint.isClosed = true := by
      obtain ⟨first, rest, parts, -, second⟩ := List.map_eq_append_iff.1 split
      obtain ⟨input, others, rfl, same, rfl⟩ := List.map_eq_cons_iff.1 second
      cases same
      obtain ⟨rfl, found⟩ := perform_unreadable parts
      exact ⟨rfl, found⟩
    rw [inputs_snoc] at split
    rcases List.append_eq_append_iff.1 split with ⟨front, -, now⟩ | ⟨back, old, rest⟩
    · exact fresh front now
    · cases back with
      | nil => exact fresh [] rest.symm
      | cons x back =>
        rw [List.cons_append] at rest
        obtain ⟨rfl, rfl⟩ := List.cons.inj rest
        obtain ⟨none, found, gone⟩ := ih old
        obtain ⟨nothing, kept⟩ := closed_unread gone allowed
        refine ⟨?_, kept ▸ found, perform_closed d gone⟩
        rw [List.map_append, packetsIn_append, none, List.nil_append, stamped_inputs, nothing]

end Course

/-- **A connection does what one serial run of its endpoint does.** In every course without a failed write,
with whatever the connection is woken by and in whatever order: the packets that the endpoint is given are
those that what has been read begins with, each once and in order, and the buffer is what is left of it
without them. The endpoint is told of bytes that are no packet only if that is what the buffer begins with
then, and is given no packet after that. And whenever a flush is through, what has been written is what all
packets that the endpoint has queued come to, in order, one that cannot be written being left out; as long
as the client is there, it has taken this or can still take it. -/
theorem course_refines {setup : ConnectionSetup} {past : List Leg} {stage : Stage} {c : Connection}
    (h : Course setup past stage c) (taken : ∀ m ∈ past, m.breaks = false) :
    let run := (Endpoint.start setup.policy 0).run (inputs past)
    let limit := effectiveLimit setup.maxPacketSize
    c.endpoint = run.endpoint ∧
    handed past <+: (unpack limit (received past)).packets.toList ∧
    Peels limit (received past) (handed past) c.buffer ∧
    (∀ earlier now error later, inputs past = earlier ++ (now, .decodeError error) :: later →
      decode limit c.buffer = .fault error ∧ packetsIn (later.map Prod.snd) = []) ∧
    (stage ≠ .reacted → written past = run.packets.toList.flatMap Packet.encoding) ∧
    (c.pipe.gone = false → written past = collected past ++ c.pipe.outbox) := by
  intro run limit
  have same : c.limit = limit := h.limit
  have peels : Peels limit (received past) (handed past) c.buffer := same ▸ h.peels
  refine ⟨h.endpoint, ?_, peels, ?_, ?_, h.collected⟩
  · obtain ⟨later, rest, fault, others, stops⟩ := peels_ending limit c.buffer
    rw [unpack_peels (peels.trans others) stops]
    exact ⟨later, rfl⟩
  · intro earlier now error later split
    obtain ⟨none, found, -⟩ := h.unreadable split
    exact ⟨same ▸ found, none⟩
  · intro flushed
    have whole := h.written taken
    rw [h.unsent flushed] at whole
    simpa using whole

/-- Of two pings of an accepted client the first is answered, behind the CONNACK. -/
theorem pinged_refines :
    ∃ past, Course narrow past .resting pinged ∧ (∀ m ∈ past, m.breaks = false) ∧
      collected past ++ [0x20, 0x02, 0x00, 0x00, 0xD0, 0x00] =
        ((Endpoint.start narrow.policy 0).run (inputs past)).packets.toList.flatMap Packet.encoding := by
  obtain ⟨past, h⟩ : Reached narrow pinged := along_reached _ _
  have there : pinged.pipe.gone = false := by decide +kernel
  have left : pinged.pipe.outbox = [0x20, 0x02, 0x00, 0x00, 0xD0, 0x00] := by decide +kernel
  have taken := h.unbroken there
  obtain ⟨-, -, -, -, written, collected⟩ := course_refines h taken
  refine ⟨past, h, taken, ?_⟩
  rw [← left, ← collected there]
  exact written nofun

end Connection
end MqttLink
