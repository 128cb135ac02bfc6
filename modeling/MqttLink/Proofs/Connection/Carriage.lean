import MqttLink.Proofs.Endpoint.Carriage
import MqttLink.Proofs.Connection.Refinement
/-!
# A connection never fails to write a packet

The packets that a connection writes are those of its endpoint. What the endpoint is given there has been
read from the client's bytes, or was asked for through the handle; so if no message that is asked for is too
large, every packet can be carried (`emits_carried`), and the branch of the flush that closes the connection
over a packet that cannot be written is never taken.
-/

namespace MqttLink

open Wire

theorem Wire.Peels.found {limit : Nat} {buffer rest : Bytes} {packets : List Packet}
    (h : Peels limit buffer packets rest) : ∀ p ∈ packets, p.Found := by
  induction h with
  | done => exact List.forall_mem_nil _
  | next first others ih =>
    intro p hp
    rcases List.mem_cons.1 hp with rfl | hp
    · exact ⟨_, _, _, first⟩
    · exact ih p hp

/-- Whether no request that waits asks for a message that is too large. -/
def Desk.Modest (d : Desk) : Prop := ∀ ticket a, .request ticket a ∈ d.waiting → (Input.action a).Fits

namespace Connection

/-! ## Writing what can be carried -/

theorem encodeAll_carriable {packets : List Packet} (fits : ∀ p ∈ packets, p.Carriable) :
    (encodeAll packets).2 = none := by
  have behind (written : Bytes × Option EncodeError) : (packets.foldl writeNext written).2 = written.2 := by
    induction packets generalizing written with
    | nil => rfl
    | cons p packets ih =>
      rw [List.foldl_cons, ih fun q hq => fits q (List.mem_cons_of_mem p hq), writeNext,
        Packet.writes_packet (fits p List.mem_cons_self)]
  exact behind ([], none)

theorem writeOut_failure {c : Connection} (whole : (encodeAll c.unsent.toList).2 = none) :
    c.writeOut.failure = c.failure ∨ c.writeOut.failure = c.failure.or (some .brokenPipe) := by
  simp only [writeOut]
  generalize encodeAll c.unsent.toList = written at whole
  obtain ⟨bytes, error⟩ := written
  cases whole
  cases bytes with
  | nil => exact .inl rfl
  | cons b rest =>
    cases c.pipe.gone with
    | false => exact .inl rfl
    | true => exact .inr rfl

/-- Only a write can fail. -/
theorem perform_failure {c : Connection} {d : Deed} (other : d ≠ .write) :
    (c.perform d).failure = c.failure := by
  rw [perform_eq]
  change (c.aside d).failure = c.failure
  cases d with
  | outside o => rw [aside, meet_eq]
  | wake w =>
    cases w with
    | room => rw [aside, moveOldest_eq]
    | _ => rfl
  | write => exact absurd rfl other
  | pass => rw [aside, moveOldest_eq]
  | rest => rw [aside, windUp_eq]

/-! ## What the endpoint is given -/

/-- Whether a deed asks for no message that is too large for a packet. -/
def Deed.Modest : Deed → Prop
  | .outside (.request a) => (Input.action a).Fits
  | _ => True

theorem modest_shutDown (d : Desk) : d.shutDown.Modest := fun _ _ waiting => by cases waiting

theorem modest_meet {c : Connection} {o : Outside} (h : c.desk.Modest) (modest : (Deed.outside o).Modest) :
    (c.meet o).desk.Modest := by
  cases o with
  | request a =>
    simp only [meet, request, Desk.request]
    split
    · split
      · exact modest_shutDown _
      · intro ticket b waiting
        rcases List.mem_append.1 waiting with waiting | now
        · exact h ticket b waiting
        · cases List.mem_singleton.1 now
          exact modest
    · exact h
  | requestClose =>
    simp only [meet, requestClose]
    split
    · split
      · exact h
      · intro ticket b waiting
        rcases List.mem_append.1 waiting with waiting | now
        · exact h ticket b waiting
        · cases List.mem_singleton.1 now
    · exact h
  | clientSends bytes => rw [meet_clientSends]; exact h
  | _ => exact h

theorem modest_serve {c : Connection} (h : c.desk.Modest) : c.serve.desk.Modest := by
  cases waiting : c.desk.waiting with
  | nil =>
    simp only [serve, waiting]
    exact h
  | cons call rest =>
    have later : ∀ ticket a, .request ticket a ∈ rest → (Input.action a).Fits := fun ticket a found =>
      h ticket a (by rw [waiting]; exact List.mem_cons_of_mem call found)
    cases call <;> simp only [serve, waiting] <;> exact later

theorem modest_windUp {c : Connection} (h : c.desk.Modest) : c.windUp.desk.Modest := by
  simp only [windUp]
  split
  · split
    · exact modest_shutDown _
    · exact h
  · exact h

theorem modest_perform {c : Connection} {d : Deed} (h : c.desk.Modest) (modest : d.Modest) :
    (c.perform d).desk.Modest := by
  rw [perform_eq]
  change (c.aside d).desk.Modest
  cases d with
  | outside o => exact modest_meet h modest
  | wake w =>
    cases w with
    | call => exact modest_serve h
    | room => rw [aside, moveOldest_eq]; exact h
    | _ => exact h
  | write => exact h
  | pass => rw [aside, moveOldest_eq]; exact h
  | rest => exact modest_windUp h

/-- What is found in the buffer is no request. -/
theorem offers_action {c : Connection} {a : Action} : .action a ∉ c.offers := by
  induction c using workOff_induction with
  | shut c reads => rw [(workOff_shut reads).2]; nofun
  | incomplete c reads h => rw [(workOff_incomplete reads h).2]; nofun
  | fault c error reads h => rw [(workOff_fault reads h).2]; simp
  | packet c p size reads h ih =>
    rw [(workOff_packet reads h).2]
    simpa using ih

/-- The requests that are put to the endpoint have waited. -/
theorem inputsOf_action {c : Connection} {d : Deed} {a : Action} (put : .action a ∈ c.inputsOf d) :
    ∃ ticket, .request ticket a ∈ c.desk.waiting := by
  cases looks : d.looks with
  | false => simpa [Input.IsPlain] using blind_inputs c looks put
  | true =>
    cases d with
    | wake w =>
      cases w with
      | bytes | room => exact absurd put offers_action
      | call =>
        rcases List.mem_append.1 put with called | found
        · cases waiting : c.desk.waiting with
          | nil => simp [waiting] at called
          | cons call rest =>
            cases call with
            | close => simp [waiting, Call.input] at called
            | request ticket b =>
              obtain rfl : a = b := by simpa [waiting, Call.input] using called
              exact ⟨ticket, List.mem_cons_self⟩
        · exact absurd found offers_action
      | _ => cases looks
    | _ => cases looks

/-! ## Over a course -/

namespace Course

variable {setup : ConnectionSetup} {past : List Leg} {stage : Stage} {c : Connection}

theorem desk_modest (h : Course setup past stage c) (modest : ∀ m ∈ past, m.deed.Modest) : c.desk.Modest := by
  induction h with
  | start => exact fun _ _ waiting => by cases waiting
  | @next past _ _ c d before allowed ih =>
    refine modest_perform (ih fun m hm => modest m (List.mem_append_left _ hm)) ?_
    exact modest ⟨c, d⟩ (List.mem_append_right _ List.mem_cons_self)

/-- **What the endpoint of a connection is given fits**: packets have been read, and messages were asked for
through the handle. -/
theorem inputs_fit (h : Course setup past stage c) (modest : ∀ m ∈ past, m.deed.Modest) :
    ∀ x ∈ inputs past, x.2.Fits := by
  have requests : ∀ x ∈ inputs past, ∀ a, x.2 = .action a → x.2.Fits := by
    induction h with
    | start => exact List.forall_mem_nil _
    | @next past _ _ c d before allowed ih =>
      have earlier : ∀ m ∈ past, m.deed.Modest := fun m hm => modest m (List.mem_append_left _ hm)
      intro x hx a request
      rw [inputs_snoc] at hx
      rcases List.mem_append.1 hx with hx | hx
      · exact ih earlier x hx a request
      · obtain ⟨input, put, rfl⟩ := List.mem_map.1 hx
        obtain rfl : input = .action a := request
        obtain ⟨ticket, waiting⟩ := inputsOf_action put
        exact before.desk_modest earlier ticket a waiting
  intro x hx
  cases what : x.2 with
  | packet p =>
    have put : .packet p ∈ (inputs past).map Prod.snd := List.mem_map.2 ⟨x, hx, what⟩
    exact h.peels.found p (mem_packetsIn.2 put)
  | action a => exact what ▸ requests x hx a what
  | _ => trivial

/-- What is still to be written has been queued by the endpoint. -/
theorem unsent_queued (h : Course setup past stage c) :
    ∀ p ∈ c.unsent.toList, p ∈ ((Endpoint.start setup.policy 0).run (inputs past)).packets.toList := by
  induction h with
  | start => exact List.forall_mem_nil _
  | @next past _ _ c d before allowed ih =>
    intro p hp
    rw [before.queued d, Array.toList_append, List.mem_append]
    rw [perform_unsent, Array.toList_append, List.mem_append] at hp
    refine hp.imp_left fun waiting => ?_
    by_cases writes : d = .write
    · subst writes; cases waiting
    · rw [aside_unsent c writes] at waiting
      exact ih p waiting

theorem unsent_carriable (h : Course setup past stage c) (modest : ∀ m ∈ past, m.deed.Modest) :
    ∀ p ∈ c.unsent.toList, p.Carriable := fun p hp =>
  (Endpoint.run_sendable (Endpoint.provided_start setup.policy 0) (h.inputs_fit modest)).packets p
    (h.unsent_queued p hp)

theorem unfailed (h : Course setup past stage c) (modest : ∀ m ∈ past, m.deed.Modest) (error : EncodeError) :
    c.failure ≠ some (.encode error) := by
  induction h with
  | start => nofun
  | @next past _ _ c d before allowed ih =>
    have earlier : ∀ m ∈ past, m.deed.Modest := fun m hm => modest m (List.mem_append_left _ hm)
    have unbroken := ih earlier
    by_cases writes : d = .write
    · subst writes
      have whole := encodeAll_carriable (before.unsent_carriable earlier)
      rcases writeOut_failure whole with same | broken
      · exact fun failed => unbroken (same.symm.trans failed)
      · intro failed
        rw [perform, broken] at failed
        cases first : c.failure with
        | none => rw [first] at failed; cases failed
        | some other => rw [first] at failed unbroken; exact unbroken failed
    · rw [perform_failure writes]
      exact unbroken

end Course

/-- **Only packets that the wire can carry are sent.** Whatever comes in whatever order: if the packets that
an endpoint is given have been read from bytes, and no message that it is asked to publish is too large,
then each packet that it ever sends is written without a failure, and what is written is read as the same
packet and no further. So at no point of a connection's course is a packet queued that a flush could not
write, and a connection never fails for that reason. -/
theorem emits_carried :
    (∀ (policy : Policy) (opened : Instant) (inputs : List (Instant × Input)), (∀ x ∈ inputs, x.2.Fits) →
      ∀ p ∈ ((Endpoint.start policy opened).run inputs).packets.toList, p.Carried) ∧
    ∀ (setup : ConnectionSetup) (past : List Leg) (stage : Stage) (c : Connection),
      Course setup past stage c → (∀ m ∈ past, m.deed.Modest) →
      (∀ p ∈ ((Endpoint.start setup.policy 0).run (inputs past)).packets.toList, p.Carried) ∧
      (encodeAll c.unsent.toList).2 = none ∧ ∀ error, c.failure ≠ some (.encode error) := by
  have carried (policy : Policy) (opened : Instant) (inputs : List (Instant × Input))
      (fits : ∀ x ∈ inputs, x.2.Fits) :
      ∀ p ∈ ((Endpoint.start policy opened).run inputs).packets.toList, p.Carried := fun p sent =>
    ((Endpoint.run_sendable (Endpoint.provided_start policy opened) fits).packets p sent).carried
  refine ⟨carried, fun setup past stage c h modest => ⟨?_, ?_, h.unfailed modest⟩⟩
  · exact carried setup.policy 0 (inputs past) (h.inputs_fit modest)
  · exact encodeAll_carriable (h.unsent_carriable modest)

/-- A client is let in, and is sent a message at level one, and again. -/
def resent : List (Instant × Input) :=
  [(0, .packet (.connect ⟨.v311, "c", true, 0, none, none, some ⟨"w", [0x78], .atMostOnce, false⟩⟩)),
    (1, .action (.accept false)), (2, .action (.publish "t" [1] .atLeastOnce false false)),
    (3, .action (.retransmit 1))]

theorem resent_carried :
    (∀ p ∈ ((Endpoint.start narrow.policy 0).run resent).packets.toList, p.Carried) ∧
      (Packet.publish ⟨true, .atLeastOnce, false, "t", some 1, [1]⟩).Carried ∧
      ∃ past c, Course narrow past .reacted c ∧
        encodeAll c.unsent.toList = ([0x32, 0x06, 0x00, 0x01, 0x74, 0x00, 0x01, 0x01], none) := by
  have small : (Input.action (.publish "t" [1] .atLeastOnce false false)).Fits :=
    Nat.le_of_ble_eq_true rfl
  have fits : ∀ x ∈ resent, x.2.Fits := by
    refine List.forall_mem_cons.2 ⟨⟨21, greeting, 21, by decide +kernel⟩, ?_⟩
    simpa [Input.Fits] using small
  have carried := emits_carried.1 narrow.policy 0 resent fits
  have sent : ((Endpoint.start narrow.policy 0).run resent).packets.toList =
      [.connack false .accepted, .publish ⟨false, .atLeastOnce, false, "t", some 1, [1]⟩,
        .publish ⟨true, .atLeastOnce, false, "t", some 1, [1]⟩] := by rfl
  refine ⟨carried, carried _ (by simp [sent]), ?_⟩
  have begins : Course narrow [] .reacted (start narrow) := .start
  have launched := (begins.next .write .write).next .rest (.rest (by decide +kernel))
  have asked := (((launched.next (.outside (.clientSends greeting)) (.outside _ _)).next
    (.wake (.bytes 21)) (.wake (by decide +kernel))).next .write .write).next .pass (.pass (by decide +kernel))
  have admitted := ((((asked.next .rest (.rest (by decide +kernel))).next
    (.outside (.request (.accept false))) (.outside _ _)).next
    (.wake .call) (.wake (by decide +kernel))).next .write .write).next .rest (.rest (by decide +kernel))
  have published := (admitted.next (.outside (.request (.publish "t" [1] .atLeastOnce false false)))
    (.outside _ _)).next (.wake .call) (.wake (by decide +kernel))
  have whole := (emits_carried.2 _ _ _ _ published (by simpa [Deed.Modest, Input.Fits] using small)).2.1
  exact ⟨_, _, published, Prod.ext (by decide +kernel) whole⟩

end Connection
end MqttLink
