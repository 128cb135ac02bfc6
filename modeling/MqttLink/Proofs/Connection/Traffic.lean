import MqttLink.Proofs.Connection.Course
/-!
# What has passed through a connection

`perform_eq` says that every deed is a run of the endpoint, with something aside from it that leaves the
endpoint alone. So a course has a serial run of the endpoint in it (`Course.endpoint`). And no byte is lost
or read twice: what the client has sent is what has been read and what has not (`Course.sent`), and what
has been read is the packets that have been handed over and the buffer (`Course.peels`).
-/

namespace MqttLink

/-- What serving a call puts to the endpoint. -/
def Call.input : Call → Input
  | .request _ action => .action action
  | .close => .close

/-- An input that is neither something the client says nor a request. -/
def Input.IsPlain (input : Input) : Prop := input = .transportClosed ∨ input = .timeout ∨ input = .close

namespace Connection

open Wire

/-! ## Deed by deed -/

/-- What a deed puts to the endpoint, in order. -/
def inputsOf (c : Connection) : Deed → List Input
  | .wake (.bytes count) => (c.readBytes count).offers
  | .wake .endOfStream => [.transportClosed]
  | .wake .room => c.moveOldest.offers
  | .wake .call => (c.desk.waiting.head?.map Call.input).toList ++ c.serve.offers
  | .wake .deadline => [.timeout]
  | .wake .shutdown => [.close]
  | .write =>
    (if (encodeAll c.unsent.toList).2.isSome then [.close] else []) ++
      if !(encodeAll c.unsent.toList).1.isEmpty && c.pipe.gone then [.transportClosed] else []
  | .wake .noHandle | .outside _ | .pass | .rest => []

/-- What a deed does besides. -/
def aside (c : Connection) : Deed → Connection
  | .wake (.bytes count) => c.readBytes count
  | .wake .endOfStream | .wake .deadline => c
  | .wake .call => { c with desk := c.serve.desk }
  | .wake .noHandle => { c with serving := false }
  | .wake .shutdown => { c with watching := false }
  | .write => { c with unsent := #[], failure := c.writeOut.failure, pipe := c.writeOut.pipe }
  | .outside o => c.meet o
  | .wake .room | .pass => c.moveOldest
  | .rest => c.windUp

/-- The bytes that the client sends with a deed; none are taken from it once nobody reads. -/
def sentBy (c : Connection) : Deed → Bytes
  | .outside (.clientSends bytes) => if (c.clientSends bytes).isSome then bytes else []
  | _ => []

/-- The bytes that a deed reads from the stream. -/
def readBy (c : Connection) : Deed → Bytes
  | .wake (.bytes count) => c.pipe.inbox.take count
  | _ => []

/-- The bytes that a deed writes. -/
def writtenBy (c : Connection) : Deed → Bytes
  | .write => if c.pipe.gone then [] else (encodeAll c.unsent.toList).1
  | _ => []

/-! ## A deed and the endpoint -/

theorem run_one (c : Connection) (input : Input) :
    c.endpoint.run (c.stamped [input]) = (c.endpoint.step c.now input).2 :=
  Endpoint.run_single ..

theorem serve_eq (c : Connection) :
    c.serve = { c with desk := c.serve.desk }.absorb
      (c.endpoint.run (c.stamped (c.desk.waiting.head?.map Call.input).toList)) := by
  cases waiting : c.desk.waiting with
  | nil =>
    simp only [serve, waiting]
    exact (absorb_still c).symm
  | cons call rest =>
    simp only [List.head?_cons, Option.map_some, Option.toList_some, run_one]
    cases call with
    | close => simp only [serve, waiting]; rfl
    | request ticket action => simp only [serve, waiting]; rfl

theorem run_two (c : Connection) (first second : Input) :
    c.endpoint.run (c.stamped [first, second]) =
      (c.endpoint.step c.now first).2.andThen fun e => (e.step c.now second).2 := by
  simp only [stamped, List.map_cons, List.map_nil, Endpoint.run_cons, Endpoint.run_nil, Reaction.andThen_still]

theorem writeOut_eq (c : Connection) :
    c.writeOut = { c with unsent := #[], failure := c.writeOut.failure, pipe := c.writeOut.pipe }.absorb
      (c.endpoint.run (c.stamped (c.inputsOf .write))) := by
  simp only [writeOut, inputsOf]
  generalize encodeAll c.unsent.toList = written
  obtain ⟨bytes, error⟩ := written
  cases error with
  | none =>
    cases bytes with
    | nil => exact (absorb_still _).symm
    | cons b rest =>
      cases c.pipe.gone with
      | false => exact (absorb_still _).symm
      | true => simp [run_one, fail]; rfl
  | some e =>
    cases bytes with
    | nil => simp [run_one]; rfl
    | cons b rest =>
      cases gone : c.pipe.gone with
      | false => simp [gone, run_one, fail]; rfl
      | true => simp [gone, run_two, absorb_andThen, fail]; rfl

theorem writeOut_buffer (c : Connection) : c.writeOut.buffer = c.buffer := by rw [writeOut_eq]; rfl

theorem moveOldest_eq (c : Connection) :
    c.moveOldest =
      { c with
        channel := c.moveOldest.channel
        backlog := c.moveOldest.backlog
        delivering := c.moveOldest.delivering } := by
  unfold moveOldest stopDelivering
  split
  · rfl
  · split <;> rfl

theorem windUp_eq (c : Connection) :
    c.windUp = { c with pipe := c.windUp.pipe, finished := c.windUp.finished, desk := c.windUp.desk } := by
  simp only [windUp]
  split
  · split <;> rfl
  · rfl

theorem clientSends_eq_some {c c' : Connection} {bytes : Bytes} (taken : c.clientSends bytes = some c') :
    c' = { c with pipe := { c.pipe with inbox := c.pipe.inbox ++ bytes } } := by
  unfold clientSends at taken
  split at taken
  · rename_i none
    rw [List.isEmpty_iff.1 none, List.append_nil]
    exact (Option.some.inj taken).symm
  · split at taken
    · cases taken
    · exact (Option.some.inj taken).symm

theorem meet_clientSends (c : Connection) (bytes : Bytes) :
    c.meet (.clientSends bytes) =
      { c with
        pipe := { c.pipe with
          inbox := c.pipe.inbox ++ c.sentBy (.outside (.clientSends bytes)) } } := by
  simp only [meet, sentBy]
  cases taken : c.clientSends bytes with
  | none => simp
  | some c' => simp [clientSends_eq_some taken]

theorem meet_request (c : Connection) (action : Action) :
    c.meet (.request action) = { c with desk := (c.meet (.request action)).desk } := by
  simp only [meet, request]
  split <;> rfl

theorem meet_requestClose (c : Connection) :
    c.meet .requestClose = { c with desk := (c.meet .requestClose).desk } := by
  simp only [meet, requestClose]
  split
  · split <;> rfl
  · rfl

theorem meet_eq (c : Connection) (o : Outside) :
    c.meet o =
      { c with
        now := (c.meet o).now
        pipe := (c.meet o).pipe
        channel := (c.meet o).channel
        desk := (c.meet o).desk
        shutdownDue := (c.meet o).shutdownDue } := by
  cases o with
  | clientSends bytes => rw [meet_clientSends]
  | request action => rw [meet_request]
  | requestClose => rw [meet_requestClose]
  | _ => rfl

theorem workOff_after {c c' : Connection} (same : c'.endpoint = c.endpoint) (still : c'.now = c.now) :
    c'.workOff = { c' with buffer := c'.workOff.buffer }.absorb
      (c.endpoint.run (c.stamped c'.offers)) := by
  rw [stamped, ← same, ← still]
  exact workOff_eq c'

/-- **Every deed is a run of the endpoint**, with something aside from it. What it leaves in the buffer is
`perform_peels`. -/
theorem perform_eq (c : Connection) (d : Deed) :
    c.perform d = { c.aside d with buffer := (c.perform d).buffer }.absorb
      (c.endpoint.run (c.stamped (c.inputsOf d))) := by
  have untouched (c' : Connection) (same : c'.endpoint = c.endpoint) :
      c' = { c' with buffer := c'.buffer }.absorb (c.endpoint.run (c.stamped [])) := by
    rw [← same]
    exact (absorb_still c').symm
  have atOnce (c' : Connection) (input : Input) :
      c'.absorb (c.endpoint.step c.now input).2 = { c' with buffer := c'.buffer }.absorb
        (c.endpoint.run (c.stamped [input])) := by
    rw [run_one]
  cases d with
  | outside o => exact untouched (c.meet o) (by rw [meet_eq])
  | wake w =>
    cases w with
    | bytes count => exact workOff_eq (c.readBytes count)
    | endOfStream => exact atOnce c .transportClosed
    | room => exact workOff_after (by rw [moveOldest_eq]) (by rw [moveOldest_eq])
    | call =>
      have served := serve_eq c
      have worked := workOff_eq c.serve
      simp only [perform, react, aside, inputsOf, stamped, List.map_append, Endpoint.run_append, absorb_andThen]
      generalize c.serve.workOff = whole, c.serve.offers = offers, c.serve.desk = desk at served worked ⊢
      rw [served] at worked
      exact worked
    | noHandle => exact untouched { c with serving := false } rfl
    | deadline => exact atOnce c .timeout
    | shutdown => exact atOnce { c with watching := false } .close
  | write =>
    have kept : c.writeOut.buffer = c.buffer := c.writeOut_buffer
    simp only [perform, aside, kept]
    exact writeOut_eq c
  | pass => exact untouched c.moveOldest (by rw [moveOldest_eq])
  | rest => exact untouched c.windUp (by rw [windUp_eq])

theorem perform_endpoint (c : Connection) (d : Deed) :
    (c.perform d).endpoint = (c.endpoint.run (c.stamped (c.inputsOf d))).endpoint := by rw [perform_eq]; rfl

theorem perform_closed {c : Connection} (d : Deed) (gone : c.endpoint.isClosed = true) :
    (c.perform d).endpoint.isClosed = true := by
  rw [perform_endpoint, Endpoint.run_over _ gone]
  exact gone

theorem aside_endpoint (c : Connection) (d : Deed) : (c.aside d).endpoint = c.endpoint := by
  cases d with
  | outside o => rw [aside, meet_eq]
  | wake w =>
    cases w with
    | room => rw [aside, moveOldest_eq]
    | _ => rfl
  | write => rfl
  | pass => rw [aside, moveOldest_eq]
  | rest => rw [aside, windUp_eq]

theorem perform_limit (c : Connection) (d : Deed) : (c.perform d).limit = c.limit := by
  rw [perform_eq]
  change (c.aside d).limit = c.limit
  cases d with
  | outside o => simp only [aside]; rw [meet_eq]
  | wake w => cases w <;> simp only [aside, readBytes]; rw [moveOldest_eq]
  | write => rfl
  | pass => simp only [aside]; rw [moveOldest_eq]
  | rest => simp only [aside]; rw [windUp_eq]

theorem moveOldest_capacity (c : Connection) : c.moveOldest.channel.capacity = c.channel.capacity := by
  unfold moveOldest stopDelivering
  split
  · rfl
  · split <;> rfl

theorem meet_capacity (c : Connection) (o : Outside) :
    (c.meet o).channel.capacity = c.channel.capacity := by
  cases o with
  | clientSends bytes => rw [meet_clientSends]
  | request action => rw [meet_request]
  | requestClose => rw [meet_requestClose]
  | takeEvent =>
    simp only [meet, Channel.take?]
    cases c.channel.queue <;> rfl
  | _ => rfl

theorem perform_capacity (c : Connection) (d : Deed) :
    (c.perform d).channel.capacity = c.channel.capacity := by
  rw [perform_eq]
  change (c.aside d).channel.capacity = c.channel.capacity
  cases d with
  | outside o => exact c.meet_capacity o
  | wake w =>
    cases w with
    | room => exact c.moveOldest_capacity
    | _ => rfl
  | write => rfl
  | pass => exact c.moveOldest_capacity
  | rest => simp only [aside]; rw [windUp_eq]

/-! ## Bytes -/

theorem writeOut_pipe (c : Connection) :
    c.writeOut.pipe = { c.pipe with outbox := c.pipe.outbox ++ c.writtenBy .write } := by
  simp only [writeOut, writtenBy]
  generalize encodeAll c.unsent.toList = written
  obtain ⟨bytes, error⟩ := written
  by_cases gone : c.pipe.gone = true
  · rw [if_pos gone, List.append_nil]
    show _ = c.pipe
    cases bytes <;> cases error <;> simp [gone, fail]
  · rw [if_neg gone]
    cases bytes with
    | nil => cases error <;> simp [fail]
    | cons b rest => cases error <;> simp [gone, fail]

theorem windUp_pipe (c : Connection) : c.windUp.pipe = { c.pipe with shut := c.windUp.pipe.shut } := by
  simp only [windUp]
  split
  · split <;> rfl
  · rfl

theorem perform_pipe (c : Connection) (d : Deed) : (c.perform d).pipe = (c.aside d).pipe := by
  rw [perform_eq]; rfl

/-- **No byte is lost on the way to the buffer.** -/
theorem perform_inbox (c : Connection) (d : Deed) :
    c.pipe.inbox ++ c.sentBy d = c.readBy d ++ (c.perform d).pipe.inbox := by
  have untouched {c' : Connection} (same : c'.pipe.inbox = c.pipe.inbox) :
      c.pipe.inbox ++ [] = [] ++ c'.pipe.inbox := by simp [same]
  rw [perform_pipe]
  cases d with
  | outside o =>
    cases o with
    | clientSends bytes =>
      rw [aside, meet_clientSends]
      rfl
    | request action => exact untouched (by rw [aside, meet_request])
    | requestClose => exact untouched (by rw [aside, meet_requestClose])
    | _ => exact untouched rfl
  | wake w =>
    cases w with
    | bytes count => simp [sentBy, readBy, aside, readBytes]
    | room => exact untouched (by rw [aside, moveOldest_eq])
    | _ => exact untouched rfl
  | write => exact untouched (by rw [aside, writeOut_pipe])
  | pass => exact untouched (by rw [aside, moveOldest_eq])
  | rest => exact untouched (by rw [aside, windUp_pipe])

/-! ## Looking into the buffer -/

/-- Whether the buffer is worked off. -/
def Deed.looks : Deed → Bool
  | .wake (.bytes _) | .wake .room | .wake .call => true
  | _ => false

theorem packetsIn_append (inputs more : List Input) :
    packetsIn (inputs ++ more) = packetsIn inputs ++ packetsIn more := List.filterMap_append

theorem mem_packetsIn {p : Packet} {inputs : List Input} : p ∈ packetsIn inputs ↔ .packet p ∈ inputs := by
  rw [packetsIn, List.mem_filterMap]
  constructor
  · rintro ⟨input, put, same⟩
    cases input <;> cases same
    exact put
  · intro put
    exact ⟨.packet p, put, rfl⟩

/-- What a deed that looks into the buffer comes down to. -/
theorem looks_workOff {c : Connection} {d : Deed} (looks : d.looks = true) :
    ∃ c' : Connection, c.perform d = c'.workOff ∧ packetsIn (c.inputsOf d) = packetsIn c'.offers ∧
      c'.limit = c.limit ∧ c'.buffer = c.buffer ++ c.readBy d ∧
      (c.endpoint.isClosed = true → c'.endpoint = c.endpoint) := by
  cases d with
  | wake w =>
    cases w with
    | bytes count => exact ⟨c.readBytes count, rfl, rfl, rfl, rfl, fun _ => rfl⟩
    | room =>
      refine ⟨c.moveOldest, rfl, rfl, by rw [moveOldest_eq], ?_, fun _ => by rw [moveOldest_eq]⟩
      rw [moveOldest_eq]
      exact (List.append_nil c.buffer).symm
    | call =>
      have none : packetsIn (c.desk.waiting.head?.map Call.input).toList = [] := by
        cases c.desk.waiting with
        | nil => rfl
        | cons call rest => cases call <;> rfl
      refine ⟨c.serve, rfl, ?_, by rw [serve_eq]; rfl, ?_, fun gone => ?_⟩
      · rw [inputsOf, packetsIn_append, none, List.nil_append]
      · rw [serve_eq]
        exact (List.append_nil c.buffer).symm
      · rw [serve_eq, absorb_endpoint, Endpoint.run_over _ gone]
        rfl
    | _ => cases looks
  | _ => cases looks

theorem blind_buffer {d : Deed} (c : Connection) (blind : d.looks = false) :
    (c.perform d).buffer = c.buffer := by
  cases d with
  | outside o => rw [perform, meet_eq]
  | wake w =>
    cases w with
    | bytes count | room | call => cases blind
    | _ => rfl
  | write => exact c.writeOut_buffer
  | pass => rw [perform, moveOldest_eq]
  | rest => rw [perform, windUp_eq]

theorem blind_readBy {d : Deed} (c : Connection) (blind : d.looks = false) : c.readBy d = [] := by
  cases d with
  | wake w =>
    cases w with
    | bytes count => cases blind
    | _ => rfl
  | _ => rfl

theorem blind_inputs {d : Deed} {input : Input} (c : Connection) (blind : d.looks = false)
    (put : input ∈ c.inputsOf d) : input.IsPlain := by
  cases d with
  | wake w =>
    cases w with
    | bytes count | room | call => cases blind
    | endOfStream | deadline | shutdown | noHandle => simp_all [inputsOf, Input.IsPlain]
  | write =>
    simp only [inputsOf, List.mem_append] at put
    rcases put with put | put <;> split at put <;> simp_all [Input.IsPlain]
  | outside | pass | rest => cases put

theorem blind_packets {d : Deed} (c : Connection) (blind : d.looks = false) :
    packetsIn (c.inputsOf d) = [] := by
  rw [List.eq_nil_iff_forall_not_mem]
  intro p handed
  have plain := blind_inputs c blind (mem_packetsIn.1 handed)
  simp [Input.IsPlain] at plain

/-- **What leaves the buffer are the packets that are handed over.** -/
theorem perform_peels (c : Connection) (d : Deed) :
    Peels c.limit (c.buffer ++ c.readBy d) (packetsIn (c.inputsOf d)) (c.perform d).buffer := by
  cases looks : d.looks with
  | true =>
    obtain ⟨c', same, found, limit, filled, -⟩ := looks_workOff (c := c) looks
    rw [same, found, ← limit, ← filled]
    exact workOff_peels c'
  | false =>
    rw [blind_readBy c looks, blind_packets c looks, blind_buffer c looks, List.append_nil]
    exact .done c.buffer

/-- A deed that looks leaves nothing behind that could be read. -/
theorem looks_stops {c : Connection} {d : Deed} (looks : d.looks = true)
    (reads : (c.perform d).isReading = true) :
    decode (c.perform d).limit (c.perform d).buffer = .incomplete := by
  obtain ⟨c', same, -⟩ := looks_workOff (c := c) looks
  rw [same] at reads ⊢
  exact workOff_stops c' reads

/-! ## Over a course -/

/-- What has been put to the endpoint, in order, each at its time. -/
def inputs (past : List Leg) : List (Instant × Input) :=
  past.flatMap fun m => m.before.stamped (m.before.inputsOf m.deed)

/-- The packets that have been handed to the endpoint, in order. -/
def handed (past : List Leg) : List Packet := packetsIn ((inputs past).map Prod.snd)

/-- What the client has sent. -/
def sent (past : List Leg) : Bytes := past.flatMap fun m => m.before.sentBy m.deed

/-- What has been read of it. -/
def received (past : List Leg) : Bytes := past.flatMap fun m => m.before.readBy m.deed

theorem inputs_snoc (past : List Leg) (c : Connection) (d : Deed) :
    inputs (past ++ [⟨c, d⟩]) = inputs past ++ c.stamped (c.inputsOf d) := by simp [inputs]

theorem handed_snoc (past : List Leg) (c : Connection) (d : Deed) :
    handed (past ++ [⟨c, d⟩]) = handed past ++ packetsIn (c.inputsOf d) := by
  simp [handed, inputs_snoc, packetsIn_append, stamped_inputs]

theorem sent_snoc (past : List Leg) (c : Connection) (d : Deed) :
    sent (past ++ [⟨c, d⟩]) = sent past ++ c.sentBy d := by simp [sent]

theorem received_snoc (past : List Leg) (c : Connection) (d : Deed) :
    received (past ++ [⟨c, d⟩]) = received past ++ c.readBy d := by simp [received]

namespace Course

variable {setup : ConnectionSetup} {past : List Leg} {stage : Stage} {c : Connection}

/-- **There is one serial run of the endpoint in every course.** -/
theorem endpoint (h : Course setup past stage c) :
    c.endpoint = ((Endpoint.start setup.policy 0).run (inputs past)).endpoint := by
  induction h with
  | start => rfl
  | next d before allowed ih =>
    rw [perform_endpoint, inputs_snoc, Endpoint.run_append, ih]
    rfl

theorem limit (h : Course setup past stage c) : c.limit = effectiveLimit setup.maxPacketSize := by
  induction h with
  | start => rfl
  | next d before allowed ih => rw [perform_limit, ih]

theorem capacity (h : Course setup past stage c) : c.channel.capacity = max setup.eventCapacity 1 := by
  induction h with
  | start => rfl
  | next d before allowed ih => rw [perform_capacity, ih]

/-- **What the client has sent is what has been read and what has not.** -/
theorem sent (h : Course setup past stage c) : sent past = received past ++ c.pipe.inbox := by
  induction h with
  | start => rfl
  | next d before allowed ih =>
    rw [sent_snoc, received_snoc, ih, List.append_assoc, perform_inbox, List.append_assoc]

/-- **What has been read is the packets that have been handed over and the buffer.** -/
theorem peels (h : Course setup past stage c) : Peels c.limit (received past) (handed past) c.buffer := by
  induction h with
  | start => exact .done []
  | next d before allowed ih =>
    rw [received_snoc, handed_snoc, perform_limit]
    exact (ih.append _).trans (perform_peels _ d)

end Course

end Connection
end MqttLink
