import MqttLink.Proofs.Connection.Desk
/-!
# What becomes of a request

A request is answered with what the endpoint has made of it, or because nobody is left to serve it
(`calls_answered`). In the first case the endpoint has met it once, in its turn; in the second never. So the
answer can be relied on: behind an answer that grants the request there is one packet, and the next flush
brings it to the client's end of the stream; a request that is turned down brings nothing there.
-/

namespace MqttLink

namespace Endpoint

open Reaction

/-- The packet in which the client learns of a request that is granted, with the identifier that the
application is told. -/
def own (e : Endpoint) (id : Option PacketId) : Action → Packet
  | .accept present => .connack (present && !e.session.cleanSession) .accepted
  | .reject code => .connack false code
  | .publish topic payload qos dup retain =>
    .publish { draft topic payload qos dup retain with packetId := id }
  | .retransmit id =>
    match e.session.exchanges.outgoing[id]? with
    | some (.sent message) => .publish { message with dup := true }
    | _ => .pubrel id
  | .subscribeAcknowledge id codes => .suback id codes
  | .unsubscribeAcknowledge id => .unsuback id
  | .publishAcknowledge id => .puback id
  | .publishReceived id => .pubrec id
  | .publishRelease id => .pubrel id
  | .publishComplete id => .pubcomp id

/-- What is granted to an accepted client's application says one thing. -/
theorem Granted.own {e : Endpoint} {a : Action} {id : Option PacketId} {r : Reaction}
    (fits : Granted e a id r) : r.packets = #[e.own id a] := by
  cases fits with
  | publish name fits =>
    obtain ⟨-, rfl, -⟩ | ⟨-, id, -, rfl, -⟩ := InFlight.register_eq_ok.1 fits <;> rfl
  | retransmit fits =>
    obtain ⟨-, ⟨m, held, rfl, -⟩ | ⟨held, rfl, -⟩⟩ := InFlight.retransmit_eq_ok.1 fits <;>
      simp only [Endpoint.own, held]
  | _ => rfl

/-- **A request that is granted says one thing**, if no packet waits behind CONNECT. -/
theorem act_own {e : Endpoint} (h : NothingHeld e) {now : Instant} {a : Action} {id : Option PacketId}
    (granted : (e.act now a).1 = .ok id) : (e.act now a).2.packets = #[e.own id a] := by
  rw [act_eq] at granted ⊢
  cases made : e.attempt now a with
  | error error => rw [made] at granted; cases granted
  | ok outcome =>
    obtain ⟨given, r⟩ := outcome
    rw [made] at granted
    cases granted
    cases a with
    | accept present =>
      simp only [attempt, map_none_eq_ok, accept_eq_ok] at made
      obtain ⟨rfl, -, due, held, asked, rfl⟩ := made
      rw [h due held asked]
      rfl
    | reject code =>
      simp only [attempt, map_none_eq_ok, reject_eq_ok] at made
      obtain ⟨rfl, opened, -, -, rfl⟩ := made
      rw [refuse_open code opened]
      rfl
    | _ => exact (attempt_granted made (by simp)).2.own

/-- The packet of a request that is granted is queued behind what is there already. -/
theorem run_granted {e : Endpoint} {earlier : List (Instant × Input)} {now : Instant} {a : Action}
    {p : Packet} (alone : ((e.run earlier).endpoint.act now a).2.packets = #[p])
    (later : List (Instant × Input)) :
    ∃ more, (e.run (earlier ++ (now, .action a) :: later)).packets.toList =
      (e.run earlier).packets.toList ++ p :: more := by
  refine ⟨(((e.run earlier).endpoint.act now a).2.endpoint.run later).packets.toList, ?_⟩
  rw [run_append, andThen, run_cons, andThen]
  simp only [step, alone, Array.toList_append]
  rfl

/-- **A request that is turned down leaves nothing behind.** -/
theorem run_refused {e : Endpoint} {earlier : List (Instant × Input)} {now : Instant} {a : Action}
    {error : ActionError} (refused : ((e.run earlier).endpoint.act now a).1 = .error error)
    (later : List (Instant × Input)) :
    e.run (earlier ++ (now, .action a) :: later) = e.run (earlier ++ later) := by
  have unchanged : ((e.run earlier).endpoint.act now a).2 = still (e.run earlier).endpoint := by
    rw [act_eq] at refused ⊢
    cases made : (e.run earlier).endpoint.attempt now a with
    | error error => rfl
    | ok outcome => rw [made] at refused; cases refused
  rw [run_append, run_append, andThen, run_cons, step]
  simp only [unchanged, still_andThen]
  rfl

end Endpoint

namespace Connection

/-! ## Writing without a failure -/

/-- Without a failure every packet is written whole. -/
theorem encodeAll_whole {packets : List Packet} (unfailed : (encodeAll packets).2 = none) :
    ∀ p ∈ packets, p.encode = .ok p.encoding := by
  have behind (packets : List Packet) (written : Bytes × Option EncodeError)
      (unfailed : (packets.foldl writeNext written).2 = none) :
      written.2 = none ∧ ∀ p ∈ packets, p.encode = .ok p.encoding := by
    induction packets generalizing written with
    | nil => exact ⟨unfailed, List.forall_mem_nil _⟩
    | cons p packets ih =>
      obtain ⟨first, others⟩ := ih _ unfailed
      rw [writeNext] at first
      rcases p.write_encode with ⟨whole, writes⟩ | ⟨e, started, -, -, writes⟩
      · rw [writes] at first
        exact ⟨first, List.forall_mem_cons.2 ⟨whole, others⟩⟩
      · rw [writes] at first
        cases before : written.2 <;> simp [before] at first
  exact (behind packets _ unfailed).2

theorem writeOut_unfailed {c : Connection} (unfailed : c.writeOut.failure = none) :
    c.failure = none ∧ (encodeAll c.unsent.toList).2 = none ∧ (Leg.mk c .write).breaks = false := by
  simp only [Leg.breaks]
  simp only [writeOut] at unfailed
  generalize encodeAll c.unsent.toList = written at unfailed ⊢
  obtain ⟨bytes, error⟩ := written
  cases error <;> cases first : c.failure <;> cases bytes <;> cases gone : c.pipe.gone <;> simp_all [fail]

namespace Course

variable {setup : ConnectionSetup} {past : List Leg} {stage : Stage} {c : Connection}

/-- A failure is kept, so without one every write has gone through, and every packet has been written whole or
is still to be written. -/
theorem unfailing (h : Course setup past stage c) (unfailed : c.failure = none) :
    (∀ m ∈ past, m.breaks = false ∧ m.after.failure = none) ∧
      ∀ p ∈ ((Endpoint.start setup.policy 0).run (inputs past)).packets.toList,
        p.encode = .ok p.encoding ∨ p ∈ c.unsent.toList := by
  induction h with
  | start => exact ⟨List.forall_mem_nil _, List.forall_mem_nil _⟩
  | @next past _ _ c d before allowed ih =>
    have last : c.failure = none ∧ (Leg.mk c d).breaks = false ∧
        ∀ p ∈ c.unsent.toList, p.encode = .ok p.encoding ∨ p ∈ (c.aside d).unsent.toList := by
      by_cases writes : d = .write
      · subst writes
        obtain ⟨first, whole, taken⟩ := writeOut_unfailed unfailed
        exact ⟨first, taken, fun p hp => .inl (encodeAll_whole whole p hp)⟩
      · refine ⟨by rwa [perform_failure writes] at unfailed, ?_, ?_⟩
        · cases d with
          | write => exact absurd rfl writes
          | _ => rfl
        · rw [aside_unsent c writes]
          exact fun p hp => .inr hp
    obtain ⟨first, taken, kept⟩ := last
    obtain ⟨unbroken, whole⟩ := ih first
    refine ⟨?_, fun p hp => ?_⟩
    · intro m hm
      rcases List.mem_append.1 hm with hm | hm
      · exact unbroken m hm
      · rw [List.mem_singleton.1 hm]
        exact ⟨taken, unfailed⟩
    · rw [before.queued d, Array.toList_append] at hp
      rw [perform_unsent, Array.toList_append, List.mem_append]
      rcases List.mem_append.1 hp with earlier | now
      · rcases whole p earlier with done | waits
        · exact .inl done
        · exact (kept p waits).imp_right .inl
      · exact .inr (.inr now)

/-- Unless the turn is still under way, a flush has followed what has woken the connection. -/
theorem next_flush (h : Course setup past stage c) {earlier later : List Leg} {m : Leg} {w : Wake}
    (split : past = earlier ++ m :: later) (woken : m.deed = .wake w) :
    (∀ x ∈ later, x.deed ≠ .write) ∧ stage = .reacted ∨
      ∃ mid flush rest, later = mid ++ flush :: rest ∧ (∀ x ∈ mid, x.deed ≠ .write) ∧
        flush.deed = .write := by
  induction h generalizing later with
  | start => simp at split
  | @next past _ _ c d before allowed ih =>
    rcases List.eq_nil_or_concat later with rfl | ⟨later, last, rfl⟩
    · obtain ⟨rfl, same⟩ := List.append_inj' split rfl
      cases same
      cases woken
      cases allowed
      exact .inl ⟨List.forall_mem_nil _, rfl⟩
    · rw [List.concat_eq_append, ← List.cons_append, ← List.append_assoc] at split
      obtain ⟨rfl, same⟩ := List.append_inj' split rfl
      cases same
      rw [List.concat_eq_append]
      rcases ih rfl with ⟨quiet, rfl⟩ | ⟨mid, flush, rest, rfl, first⟩
      · cases allowed with
        | outside _ o =>
          refine .inl ⟨fun x hx => ?_, rfl⟩
          rcases List.mem_append.1 hx with hx | hx
          · exact quiet x hx
          · simp [List.mem_singleton.1 hx]
        | write => exact .inr ⟨later, _, [], rfl, quiet, rfl⟩
      · exact .inr ⟨mid, flush, rest ++ [⟨c, d⟩], by simp, first⟩

end Course

/-- Nothing is written but with a flush. -/
theorem written_quiet {legs : List Leg} (quiet : ∀ x ∈ legs, x.deed ≠ .write) : written legs = [] := by
  refine List.flatMap_eq_nil_iff.2 fun ⟨c, d⟩ hx => ?_
  cases d with
  | write => exact absurd rfl (quiet _ hx)
  | _ => rfl

/-! ## A request and its answer -/

section

variable {c : Connection} {d : Deed} {call : Call} {m : Leg} {ticket : Nat}

theorem mem_servesBy : call ∈ c.servesBy d ↔ d = .wake .call ∧ c.desk.waiting.head? = some call := by
  cases d with
  | wake w => cases w <;> simp [servesBy]
  | _ => simp [servesBy]

/-- Whether the request under a ticket is served here. -/
def Leg.serves (m : Leg) (ticket : Nat) : Bool :=
  ((requestsIn (m.before.servesBy m.deed)).map Prod.fst).contains ticket

theorem serves_iff : m.serves ticket = true ↔ ∃ a, .request ticket a ∈ m.before.servesBy m.deed := by
  simp [Leg.serves, mem_requestsIn]

end

/-- A request has been put to the endpoint by the leg `m` of a past, when it was the oldest call, and by no
other leg. The endpoint was what all inputs before have made of it, and this is what it has answered. -/
structure Applied (setup : ConnectionSetup) (past : List Leg) (ticket : Nat) (a : Action) (answer : Answer)
    (earlier : List Leg) (m : Leg) (later : List Leg) : Prop where
  split : past = earlier ++ m :: later
  oldest : m.deed = .wake .call ∧ m.before.desk.waiting.head? = some (.request ticket a)
  once : ∀ other ∈ earlier ++ later, other.serves ticket = false
  endpoint : m.before.endpoint = ((Endpoint.start setup.policy 0).run (inputs earlier)).endpoint
  met : ∃ found, inputs past = inputs earlier ++ (m.before.now, .action a) :: (found ++ inputs later)
  answered : answer = (m.before.endpoint.act m.before.now a).1

/-- Nobody was left to serve a request. -/
structure Dropped (past : List Leg) (c : Connection) (ticket : Nat) (answer : Answer) : Prop where
  never : ∀ m ∈ past, m.serves ticket = false
  told : answer = .error .closed
  ended : c.finished = true

/-- What the endpoint has been given, but for the request under a ticket. -/
def inputsBut (ticket : Nat) (past : List Leg) : List (Instant × Input) :=
  past.flatMap fun m =>
    m.before.stamped (if m.serves ticket then (m.before.inputsOf m.deed).tail else m.before.inputsOf m.deed)

theorem inputsBut_unserved {ticket : Nat} {past : List Leg} (never : ∀ m ∈ past, m.serves ticket = false) :
    inputsBut ticket past = inputs past := by
  induction past with
  | nil => rfl
  | cons m past ih =>
    obtain ⟨first, others⟩ := List.forall_mem_cons.1 never
    rw [inputsBut, List.flatMap_cons, first, ← inputsBut, ih others]
    rfl

/-- The request has left exactly its own packet. Its turn is still under way, or a flush has followed. Unless
something has failed by then, that flush finds the client there and puts the packet on its way, whole and right
behind all that was queued before. There it stays for as long as the client does. -/
def Conveyed (setup : ConnectionSetup) (past : List Leg) (stage : Stage) (c : Connection) (a : Action)
    (id : Option PacketId) (earlier : List Leg) (m : Leg) (later : List Leg) : Prop :=
  let p := m.before.endpoint.own id a
  let ahead := ((Endpoint.start setup.policy 0).run (inputs earlier)).packets.toList.flatMap Packet.encoding
  (m.before.endpoint.act m.before.now a).2.packets = #[p] ∧
  ((∀ x ∈ later, x.deed ≠ .write) ∧ stage = .reacted ∨
    ∃ mid flush rest, later = mid ++ flush :: rest ∧ (∀ x ∈ mid, x.deed ≠ .write) ∧ flush.deed = .write ∧
      (flush.after.failure = none →
        p.encode = .ok p.encoding ∧ flush.after.pipe.gone = false ∧
        ahead ++ p.encoding <+: collected (earlier ++ m :: mid ++ [flush]) ++ flush.after.pipe.outbox) ∧
      (c.pipe.gone = false → ahead ++ p.encoding <+: collected past ++ c.pipe.outbox))

/-- All is as if the request under a ticket had not been made: the endpoint, and what comes to the client. As
long as the client is there, that is all that would be queued without the request, up to what the next flush
writes; one that has left has got no more than that. -/
def Traceless (setup : ConnectionSetup) (past : List Leg) (c : Connection) (ticket : Nat) : Prop :=
  let without := (Endpoint.start setup.policy 0).run (inputsBut ticket past)
  let bytes := without.packets.toList.flatMap Packet.encoding
  (Endpoint.start setup.policy 0).run (inputs past) = without ∧
  c.endpoint = without.endpoint ∧
  (c.pipe.gone = false → collected past ++ c.pipe.outbox ++ c.unsent.toList.flatMap Packet.encoding = bytes) ∧
  collected past ++ c.pipe.outbox <+: bytes

theorem inputs_cut (earlier : List Leg) (m : Leg) (later : List Leg) :
    inputs (earlier ++ m :: later) =
      inputs earlier ++ (m.before.stamped (m.before.inputsOf m.deed) ++ inputs later) := by
  rw [inputs, List.flatMap_append, List.flatMap_cons]
  rfl

/-- A request that is served is the first thing that is put to the endpoint. -/
theorem inputsOf_request {c : Connection} {ticket : Nat} {a : Action}
    (oldest : c.desk.waiting.head? = some (.request ticket a)) :
    c.inputsOf (.wake .call) = .action a :: c.serve.offers := by
  rw [inputsOf, oldest]
  rfl

namespace Applied

variable {setup : ConnectionSetup} {past earlier later : List Leg} {m : Leg} {ticket : Nat} {a : Action}
  {answer : Answer} {stage : Stage} {c : Connection}

theorem serves (applied : Applied setup past ticket a answer earlier m later) : m.serves ticket = true :=
  serves_iff.2 ⟨a, mem_servesBy.2 applied.oldest⟩

theorem somewhere (applied : Applied setup past ticket a answer earlier m later) :
    ∃ x ∈ past, x.serves ticket = true :=
  ⟨m, by simp [applied.split], applied.serves⟩

theorem not_dropped (applied : Applied setup past ticket a answer earlier m later) :
    ¬ Dropped past c ticket answer := by
  intro dropped
  obtain ⟨x, hx, serves⟩ := applied.somewhere
  rw [dropped.never x hx] at serves
  cases serves

section

variable {p : Packet} (applied : Applied setup past ticket a answer earlier m later)
  (alone : (m.before.endpoint.act m.before.now a).2.packets = #[p])

include applied alone

/-- The one packet is queued behind what has been queued before, whatever has followed. -/
theorem queued (since : List Leg) :
    ∃ more, ((Endpoint.start setup.policy 0).run (inputs (earlier ++ m :: since))).packets.toList =
      ((Endpoint.start setup.policy 0).run (inputs earlier)).packets.toList ++ p :: more := by
  rw [inputs_cut, applied.oldest.1, inputsOf_request applied.oldest.2]
  exact Endpoint.run_granted (applied.endpoint ▸ alone) _

/-- Once it is flushed, it is written there. -/
theorem written {since : List Leg} (flushed : Course setup (earlier ++ m :: since) .written c)
    (taken : ∀ x ∈ earlier ++ m :: since, x.breaks = false) :
    ((Endpoint.start setup.policy 0).run (inputs earlier)).packets.toList.flatMap Packet.encoding ++
      p.encoding <+: Connection.written (earlier ++ m :: since) := by
  have bytes := flushed.written taken
  obtain ⟨more, queued⟩ := applied.queued alone since
  rw [flushed.unsent (by simp), queued, List.flatMap_append, List.flatMap_cons] at bytes
  exact ⟨more.flatMap Packet.encoding, by simpa using bytes.symm⟩

/-- A flush that fails with nothing finds the client there, since there is something to write. -/
theorem flush_taken {mid : List Leg} {w : Connection} (quiet : ∀ x ∈ mid, x.deed ≠ .write)
    (flushed : Course setup (earlier ++ m :: mid ++ [⟨w, .write⟩]) .written (w.perform .write))
    (unfailed : (w.perform .write).failure = none) :
    p.encode = .ok p.encoding ∧ (w.perform .write).pipe.gone = false := by
  obtain ⟨taken, whole⟩ := flushed.unfailing unfailed
  rw [List.append_assoc, List.cons_append] at flushed taken whole
  obtain ⟨more, queued⟩ := applied.queued alone (mid ++ [⟨w, .write⟩])
  have good : p.encode = .ok p.encoding :=
    (whole p (by simp [queued])).resolve_right (by simp [flushed.unsent (by simp)])
  refine ⟨good, ?_⟩
  by_contra left
  have gone : w.pipe.gone = true := by
    rw [perform_pipe, aside, writeOut_pipe] at left
    simpa using left
  -- what is written then is no more than before the request
  obtain ⟨_, _, before, allowed⟩ := flushed.cut
  rw [applied.oldest.1] at allowed
  cases allowed
  have rested := before.written fun x hx => (taken x (List.mem_append_left _ hx)).1
  rw [before.unsent (by simp)] at rested
  have none : Connection.written (m :: (mid ++ [⟨w, .write⟩])) = [] := by
    have first : m.before.writtenBy m.deed = [] := by rw [applied.oldest.1]; rfl
    have last : w.writtenBy .write = [] := if_pos gone
    rw [Connection.written, List.flatMap_cons, first, List.flatMap_append, List.flatMap_singleton, last,
      ← Connection.written, written_quiet quiet]
    rfl
  obtain ⟨more, bytes⟩ := applied.written alone flushed fun x hx => (taken x hx).1
  refine absurd ?_ (Packet.encoding_ne_nil good)
  rw [Connection.written, List.flatMap_append, ← Connection.written, ← Connection.written, none, List.append_nil]
    at bytes
  rw [← rested] at bytes
  exact (List.append_eq_nil_iff.1 (by simpa using bytes)).1

end

/-- What is granted goes out. -/
theorem conveyed {id : Option PacketId} (applied : Applied setup past ticket a (.ok id) earlier m later)
    (h : Course setup past stage c) : Conveyed setup past stage c a id earlier m later := by
  obtain ⟨_, _, before, -⟩ := (applied.split ▸ h).cut
  have alone := Endpoint.act_own before.nothingHeld applied.answered.symm
  refine ⟨alone, (h.next_flush applied.split applied.oldest.1).imp_right ?_⟩
  rintro ⟨mid, ⟨w, d⟩, rest, cut, quiet, writes⟩
  obtain rfl : d = .write := writes
  have whole : past = earlier ++ m :: mid ++ ⟨w, .write⟩ :: rest := by simp [applied.split, cut]
  obtain ⟨_, _, upTo, allowed⟩ := (whole ▸ h).cut
  cases allowed
  have flushed := upTo.next .write .write
  have assoc : earlier ++ m :: mid ++ [⟨w, .write⟩] = earlier ++ m :: (mid ++ [⟨w, .write⟩]) := by simp
  refine ⟨mid, ⟨w, .write⟩, rest, cut, quiet, rfl, fun unfailed => ?_, fun there => ?_⟩
  · obtain ⟨good, there⟩ := applied.flush_taken alone quiet flushed unfailed
    refine ⟨good, there, ?_⟩
    have wire := flushed.collected there
    have taken := flushed.unbroken there
    rw [assoc] at flushed taken wire
    rw [assoc]
    exact wire ▸ applied.written alone flushed taken
  · have taken := h.unbroken there
    have parts : past = earlier ++ m :: (mid ++ [⟨w, .write⟩]) ++ rest := by simp [whole]
    rw [← h.collected there, parts, Connection.written, List.flatMap_append, ← Connection.written]
    refine (applied.written alone (assoc ▸ flushed) fun x hx => taken x ?_).trans (List.prefix_append _ _)
    rw [parts]
    exact List.mem_append_left _ hx

/-- What is turned down leaves no trace. -/
theorem traceless {error : ActionError}
    (applied : Applied setup past ticket a (.error error) earlier m later) :
    (Endpoint.start setup.policy 0).run (inputs past) =
      (Endpoint.start setup.policy 0).run (inputsBut ticket past) := by
  have here := applied.serves
  obtain ⟨rfl, ⟨serves, oldest⟩, once, reached, -, answered⟩ := applied
  have others : inputsBut ticket (earlier ++ m :: later) =
      inputs earlier ++ (m.before.stamped m.before.serve.offers ++ inputs later) := by
    rw [inputsBut, List.flatMap_append, List.flatMap_cons, here, serves, inputsOf_request oldest, ← inputsBut,
      ← inputsBut, inputsBut_unserved fun x hx => once x (List.mem_append_left _ hx),
      inputsBut_unserved fun x hx => once x (List.mem_append_right _ hx)]
    rfl
  rw [others, inputs_cut, serves, inputsOf_request oldest]
  exact Endpoint.run_refused (reached ▸ answered.symm) _

end Applied

namespace Course

variable {setup : ConnectionSetup} {past : List Leg} {stage : Stage} {c : Connection} {ticket : Nat}
  {a : Action} {answer : Answer}

/-- A request is served once at most. -/
theorem once (h : Course setup past stage c) {earlier later : List Leg} {m : Leg}
    (split : past = earlier ++ m :: later) (serves : m.serves ticket = true) :
    ∀ other ∈ earlier ++ later, other.serves ticket = false := by
  have nodup : ((requestsIn (served past)).map Prod.fst).Nodup :=
    h.kept.nodup.sublist (h.kept.served_asked.sublist.map _)
  have parts : (requestsIn (served past)).map Prod.fst =
      (requestsIn (served earlier)).map Prod.fst ++ ((requestsIn (m.before.servesBy m.deed)).map Prod.fst ++
        (requestsIn (served later)).map Prod.fst) := by
    simp [split, served, requestsIn_append]
  have here : ticket ∈ (requestsIn (m.before.servesBy m.deed)).map Prod.fst := by
    simpa [Leg.serves] using serves
  have there {legs : List Leg} {other : Leg} (among : other ∈ legs) (again : other.serves ticket = true) :
      ticket ∈ (requestsIn (served legs)).map Prod.fst := by
    obtain ⟨b, serves⟩ := serves_iff.1 again
    exact List.mem_map.2 ⟨(ticket, b), mem_requestsIn.2 (mem_served.2 ⟨other, among, serves⟩), rfl⟩
  rw [parts] at nodup
  obtain ⟨-, rest, apart⟩ := List.nodup_append.1 nodup
  obtain ⟨-, -, apart'⟩ := List.nodup_append.1 rest
  intro other hm
  by_contra again
  rw [Bool.not_eq_false] at again
  rcases List.mem_append.1 hm with before | after
  · exact apart ticket (there before again) ticket (List.mem_append_left _ here) rfl
  · exact apart' ticket here ticket (there after again) rfl

/-- What has been replied to a request is what the endpoint has answered when it met it. -/
theorem applied (h : Course setup past stage c) (made : (ticket, a) ∈ asked past)
    (replied : (ticket, answer) ∈ replies past) :
    ∃ earlier m later, Applied setup past ticket a answer earlier m later := by
  obtain ⟨m, hm, b, serves, answered⟩ := mem_replies.1 replied
  have taken : (ticket, b) ∈ asked past :=
    h.kept.served_asked.subset (mem_requestsIn.2 (mem_served.2 ⟨m, hm, serves⟩))
  obtain rfl : a = b := (Prod.mk.inj (List.inj_on_of_nodup_map h.kept.nodup made taken rfl)).2
  obtain ⟨earlier, later, rfl⟩ := List.append_of_mem hm
  obtain ⟨_, _, before, -⟩ := h.cut
  obtain ⟨called, oldest⟩ := mem_servesBy.1 serves
  have once := h.once rfl (serves_iff.2 ⟨a, serves⟩)
  refine ⟨earlier, m, later, rfl, ⟨called, oldest⟩, once, before.endpoint, ?_, answered⟩
  exact ⟨m.before.stamped m.before.serve.offers, by rw [inputs_cut, called, inputsOf_request oldest]; rfl⟩

/-- **Every request that is put to the endpoint has been served**, in the same order. -/
theorem actions (h : Course setup past stage c) :
    actionsIn ((inputs past).map Prod.snd) = (requestsIn (served past)).map Prod.snd := by
  induction h with
  | start => rfl
  | @next past _ _ c d before allowed ih =>
    have more : served (past ++ [⟨c, d⟩]) = served past ++ c.servesBy d := by simp [served]
    rw [inputs_snoc, List.map_append, actionsIn_append, ih, stamped_inputs, inputsOf_actions, more,
      requestsIn_append, List.map_append]

end Course

/-- **Requests are applied at most once, in their turn, and answered truthfully.** Whatever happens, in
whatever order: calls are served in the order in which they have entered the queue, the endpoint is given no
other requests, and no ticket is given out twice. A request that has no answer waits for it, and nothing but
its turn is missing. One that is answered has either been applied, once, and the answer is what the endpoint
has said; or it never has been, the answer is that it came too late, and the connection has ended. If it is
granted, the next flush puts its packet where the client can take it; if it is turned down, the endpoint and
what comes to the client are as without it. -/
theorem calls_answered {setup : ConnectionSetup} {past : List Leg} {stage : Stage} {c : Connection}
    (h : Course setup past stage c) :
    served past <+: called past ∧
    actionsIn ((inputs past).map Prod.snd) = (requestsIn (served past)).map Prod.snd ∧
    ((asked past).map Prod.fst).Nodup ∧
    ∀ ticket a, (ticket, a) ∈ asked past →
      (c.desk.answerTo? ticket = none →
        .request ticket a ∈ c.desk.waiting ∧ c.finished = false ∧
          (stage = .resting → c.canWake .call = true)) ∧
      ∀ answer, c.desk.answerTo? ticket = some answer →
        Xor (∃ earlier m later, Applied setup past ticket a answer earlier m later)
          (Dropped past c ticket answer) ∧
        (∀ id, answer = .ok id → ∃ earlier m later, Applied setup past ticket a answer earlier m later ∧
          Conveyed setup past stage c a id earlier m later) ∧
        ∀ error, answer = .error error → Traceless setup past c ticket := by
  refine ⟨h.kept.books.prefix_called, h.actions, h.kept.nodup, fun ticket a made => ⟨?_, ?_⟩⟩
  · intro unanswered
    obtain ⟨waits, running⟩ := h.kept.waits made unanswered
    refine ⟨waits, running, fun _ => ?_⟩
    have serving : c.serving = true := by
      by_contra left
      rw [(h.attended (Bool.not_eq_true _ ▸ left)).2] at waits
      cases waits
    simpa [canWake, running, serving] using List.ne_nil_of_mem waits
  · intro answer told
    have trace (same : (Endpoint.start setup.policy 0).run (inputs past) =
        (Endpoint.start setup.policy 0).run (inputsBut ticket past)) : Traceless setup past c ticket :=
      ⟨same, same ▸ h.endpoint, fun there => same ▸ h.collected there ▸ h.written (h.unbroken there),
        same ▸ h.arrived⟩
    rcases h.kept.answered told with replied | ⟨never, rfl, ended⟩
    · obtain ⟨earlier, m, later, applied⟩ := h.applied made replied
      refine ⟨.inl ⟨⟨earlier, m, later, applied⟩, applied.not_dropped⟩, ?_, ?_⟩
      · rintro id rfl
        exact ⟨earlier, m, later, applied, applied.conveyed h⟩
      · rintro error rfl
        exact trace applied.traceless
    · have unserved : ∀ m ∈ past, m.serves ticket = false := by
        intro m hm
        by_contra serves
        obtain ⟨b, serves⟩ := serves_iff.1 (Bool.not_eq_false _ ▸ serves)
        exact never b (mem_served.2 ⟨m, hm, serves⟩)
      have dropped : Dropped past c ticket (.error .closed) := ⟨unserved, rfl, ended⟩
      refine ⟨.inr ⟨dropped, ?_⟩, by simp, fun _ _ => trace (by rw [inputsBut_unserved unserved])⟩
      rintro ⟨earlier, m, later, applied⟩
      exact applied.not_dropped dropped

/-- A client is let in and takes its CONNACK; then it is sent a message, which it can take too. The application
closes, with events still untaken; it asks for the message to be sent again before it takes them, and once more
while the connection winds up. -/
theorem closing_answered :
    ∃ past c, Course narrow past .resting c ∧ c.failure = none ∧ c.pipe.gone = false ∧
      collected past = [0x20, 0x02, 0x00, 0x00] ∧
      c.pipe.outbox = [0x32, 0x06, 0x00, 0x01, 0x74, 0x00, 0x01, 0x01] ∧
      (∃ earlier m later,
        Applied narrow past 1 (.publish "t" [1] .atLeastOnce false false) (.ok (some 1)) earlier m later ∧
        Conveyed narrow past .resting c (.publish "t" [1] .atLeastOnce false false) (some 1) earlier m later) ∧
      (∃ earlier m later, Applied narrow past 2 (.retransmit 1) (.error .closed) earlier m later) ∧
      Dropped past c 3 (.error .closed) ∧ Traceless narrow past c 2 ∧ Traceless narrow past c 3 := by
  have begins : Course narrow [] .reacted (start narrow) := .start
  have launched := (begins.next .write .write).next .rest (.rest (by decide +kernel))
  have asked := (((launched.next (.outside (.clientSends greeting)) (.outside _ _)).next
    (.wake (.bytes 21)) (.wake (by decide +kernel))).next .write .write).next .pass
    (.pass (by decide +kernel))
  have admitted := ((((asked.next .rest (.rest (by decide +kernel))).next
    (.outside (.request (.accept false))) (.outside _ _)).next
    (.wake .call) (.wake (by decide +kernel))).next .write .write).next .rest (.rest (by decide +kernel))
  have published := ((((admitted.next (.outside .clientCollects) (.outside _ _)).next
    (.outside (.request (.publish "t" [1] .atLeastOnce false false))) (.outside _ _)).next
    (.wake .call) (.wake (by decide +kernel))).next .write .write).next .rest (.rest (by decide +kernel))
  have closed := (((published.next (.outside .requestClose) (.outside _ _)).next
    (.wake .call) (.wake (by decide +kernel))).next .write .write).next .rest (.rest (by decide +kernel))
  have lingering := (((closed.next (.outside (.request (.retransmit 1))) (.outside _ _)).next
    (.wake .call) (.wake (by decide +kernel))).next .write .write).next .rest (.rest (by decide +kernel))
  have finished := (((((lingering.next (.outside .takeEvent) (.outside _ _)).next
    (.wake .room) (.wake (by decide +kernel))).next .write .write).next
    (.outside (.request (.retransmit 1))) (.outside _ _))).next .rest (.rest (by decide +kernel))
  obtain ⟨-, -, -, all⟩ := calls_answered finished
  have one := (all 1 (.publish "t" [1] .atLeastOnce false false) (by decide +kernel)).2 (.ok (some 1))
    (by decide +kernel)
  have two := (all 2 (.retransmit 1) (by decide +kernel)).2 (.error .closed) (by decide +kernel)
  have three := (all 3 (.retransmit 1) (by decide +kernel)).2 (.error .closed) (by decide +kernel)
  refine ⟨_, _, finished, by decide +kernel, by decide +kernel, by decide +kernel, by decide +kernel,
    one.2.1 _ rfl, ?_, ?_, two.2.2 _ rfl, three.2.2 _ rfl⟩
  · obtain ⟨applied, -⟩ | ⟨dropped, -⟩ := two.1
    · exact applied
    · exact absurd dropped.never (by decide +kernel)
  · obtain ⟨⟨earlier, m, later, applied⟩, -⟩ | ⟨dropped, -⟩ := three.1
    · exact absurd applied.somewhere (by decide +kernel)
    · exact dropped

end Connection
end MqttLink
