import MqttLink.Proofs.Exchange.Agreement
/-!
# The two identifier spaces have nothing to do with each other

The same number may be live in both spaces at once, and means two exchanges then. An operation concerns one
space: `Contained` says of its steps that the other space may be any and stays what it is, and goes along with
sequences of steps. So whoever looks at one space sees the operations on that space and no others, however
they are interleaved (`performAll_apart`). Only `clear` concerns both.
-/

namespace MqttLink

open InFlight (Direction Exchange Entry idSpace tried)

/-- The space that is not this one. -/
def InFlight.Direction.other : Direction → Direction
  | .inbound => .outbound
  | .outbound => .inbound

namespace Roster

/-- The space that an operation is about, if it is not about both. -/
def Operation.space? : Operation → Option Direction
  | register _ | puback _ | pubrec _ | pubcomp _ | retransmit _ => some .outbound
  | publish _ | pubrel _ | isIncoming _ => some .inbound
  | get direction _ | size direction => some direction
  | clear => none

/-- Whether an operation looks at a space or changes it. -/
def Operation.concerns (op : Operation) (d : Direction) : Bool := op.space?.all (· = d)

/-- Two rosters with the same exchanges in a space. The next identifier belongs to the outbound one. -/
def SameSpace (d : Direction) (s r : Roster) : Prop :=
  match d with
  | .inbound => s.inbound = r.inbound
  | .outbound => s.outbound = r.outbound ∧ s.next = r.next

/-- A roster with one of its spaces taken from another. -/
def graft (r : Roster) (d : Direction) (s : Roster) : Roster :=
  match d with
  | .inbound => { r with inbound := s.inbound }
  | .outbound => { r with outbound := s.outbound, next := s.next }

theorem sameSpace_graft (r : Roster) (d : Direction) (s : Roster) : SameSpace d s (r.graft d s) := by
  cases d
  · rfl
  · exact ⟨rfl, rfl⟩

theorem sameSpace_graft_other (r : Roster) (d : Direction) (s : Roster) :
    SameSpace d (r.graft d.other s) r := by
  cases d
  · rfl
  · exact ⟨rfl, rfl⟩

@[simp] theorem graft_self (r : Roster) (d : Direction) : r.graft d r = r := by
  cases d <;> rfl

/-- A roster that shares a space with another has only its other space for itself. -/
theorem SameSpace.eq_graft {d : Direction} {s r : Roster} (same : SameSpace d s r) :
    s = r.graft d.other s := by
  obtain ⟨outbound, inbound, next⟩ := s
  cases d with
  | inbound =>
    obtain rfl : inbound = r.inbound := same
    rfl
  | outbound =>
    obtain ⟨rfl, rfl⟩ : outbound = r.outbound ∧ next = r.next := same
    rfl

/-! ## Steps that leave a space alone -/

/-- A step that comes to an end, and has nothing to do with a space: whatever is there, the step does the same,
and leaves it there. -/
def Contained {α : Type} (d : Direction) (x : Step α) : Prop :=
  ∀ r s, ∃ answer r', x.outcome r = some (answer, r') ∧ x.outcome (r.graft d s) = some (answer, r'.graft d s)

section

variable {α β : Type} {d : Direction}

theorem contained_pure (a : α) : Contained d (pure a : Step α) := fun r _ => ⟨.ok a, r, rfl, rfl⟩

theorem contained_throw (e : ExchangeError) : Contained d (throw e : Step α) :=
  fun r _ => ⟨.error e, r, rfl, rfl⟩

theorem Contained.bind {x : Step α} {next : α → Step β} (first : Contained d x)
    (second : ∀ a, Contained d (next a)) : Contained d (x >>= next) := by
  intro r s
  obtain ⟨answer, r', here, there⟩ := first r s
  cases answer with
  | error e => exact ⟨.error e, r', bind_error here, bind_error there⟩
  | ok a =>
    obtain ⟨answer, r'', here', there'⟩ := second a r' s
    exact ⟨answer, r'', (bind_ok here).trans here', (bind_ok there).trans there'⟩

/-- A look at the roster, if what follows does not depend on the space. -/
theorem contained_get {next : Roster → Step β} (same : ∀ r s, next (r.graft d s) = next r)
    (later : ∀ r, Contained d (next r)) : Contained d (get >>= next : Step β) := by
  intro r s
  obtain ⟨answer, r', here, there⟩ := later r r s
  exact ⟨answer, r', here, by rw [get_bind, same, there]⟩

theorem contained_modify {change : Roster → Roster}
    (same : ∀ r s, change (r.graft d s) = (change r).graft d s) :
    Contained d (modify change : Step PUnit) :=
  fun r s => ⟨.ok ⟨⟩, change r, rfl, congrArg (fun r' => some (Except.ok PUnit.unit, r')) (same r s)⟩

end

/-! ### Outbound operations -/

theorem contained_entry (id : PacketId) : Contained .inbound (entry id) := by
  unfold entry
  split
  · exact contained_throw _
  · refine contained_get (fun _ _ => rfl) fun r => ?_
    cases r.outbound[id]? with
    | none => exact contained_throw _
    | some x => exact contained_pure x

theorem contained_complete (id : PacketId) (level : Qos) (stage : InFlight.Stage) :
    Contained .inbound (complete id level stage) := by
  refine (contained_entry id).bind fun x => ?_
  split
  · exact contained_throw _
  · exact contained_modify fun _ _ => rfl

theorem contained_pubrec (id : PacketId) : Contained .inbound (onPubrec id) := by
  refine (contained_entry id).bind fun x => ?_
  split
  · exact contained_throw _
  · exact contained_modify fun _ _ => rfl

theorem contained_retransmit (id : PacketId) : Contained .inbound (retransmit id) := by
  refine (contained_entry id).bind fun x => ?_
  split
  · exact (contained_modify fun _ _ => rfl).bind fun _ => contained_pure _
  · exact contained_pure _
  · exact contained_throw _

/-- The search for an identifier is bounded by the outbound table, and looks at nothing else. -/
theorem contained_register (m : Publish) : Contained .inbound (register idSpace m) := by
  intro r s
  by_cases level : m.qos = .atMostOnce
  · unfold register
    rw [if_pos level]
    exact contained_pure _ r s
  · by_cases full : idSpace ≤ r.outbound.size
    · exact ⟨_, r, register_full idSpace level full, register_full (r := r.graft .inbound s) idSpace level full⟩
    · have room := Nat.lt_of_not_le full
      obtain ⟨k, reach, before, free⟩ := InFlight.exists_free r.next room
      exact ⟨_, _, register_free reach level room before free,
        register_free (r := r.graft .inbound s) reach level room before free⟩

/-! ### Inbound operations -/

theorem contained_requireId (m : Publish) : Contained .outbound (InFlight.requireId m : Step PacketId) := by
  cases InFlight.requireId m with
  | error e => exact contained_throw e
  | ok id => exact contained_pure id

theorem contained_publish (m : Publish) : Contained .outbound (onPublish m) := by
  unfold onPublish
  cases m.qos with
  | atMostOnce => exact contained_pure _
  | atLeastOnce => exact (contained_requireId m).bind fun _ => contained_pure _
  | exactlyOnce =>
    refine (contained_requireId m).bind fun id => contained_get (fun _ _ => rfl) fun r => ?_
    split
    · exact contained_pure _
    · exact (contained_modify fun _ _ => rfl).bind fun _ => contained_pure _

theorem contained_pubrel (id : PacketId) : Contained .outbound (onPubrel id) := by
  unfold onPubrel
  split
  · exact contained_throw _
  · refine contained_get (fun _ _ => rfl) fun r => ?_
    split
    · exact contained_modify fun _ _ => rfl
    · exact contained_throw _

/-! ### Any operation -/

/-- An operation leaves the space alone that it is not about. -/
theorem contained_steps {d : Direction} {op : Operation} (own : op.space? = some d) :
    Contained d.other (op.steps idSpace) := by
  have reports {α : Type} {x : Step α} (report : α → Report) (step : Contained d.other x) :
      Contained d.other (x >>= fun a => pure (report a) : Step Report) :=
    step.bind fun _ => contained_pure _
  have looks {report : Roster → Report} (same : ∀ r s, report (r.graft d.other s) = report r) :
      Contained d.other (do return report (← get) : Step Report) :=
    contained_get (fun r s => by rw [same]) fun _ => contained_pure _
  cases op with
  | register m => cases own; exact reports .numbered (contained_register m)
  | puback id => cases own; exact reports (fun _ => .done) (contained_complete id _ _)
  | pubrec id => cases own; exact reports (fun _ => .done) (contained_pubrec id)
  | pubcomp id => cases own; exact reports (fun _ => .done) (contained_complete id _ _)
  | retransmit id => cases own; exact reports .again (contained_retransmit id)
  | publish m => cases own; exact reports .taken (contained_publish m)
  | pubrel id => cases own; exact reports (fun _ => .done) (contained_pubrel id)
  | isIncoming id => cases own; exact looks fun _ _ => rfl
  | get | size => cases own; cases d <;> exact looks fun _ _ => rfl
  | clear => cases own

/-! ## One operation -/

theorem SameSpace.refl (d : Direction) (r : Roster) : SameSpace d r r := by
  cases d
  · rfl
  · exact ⟨rfl, rfl⟩

theorem SameSpace.trans {d : Direction} {s r t : Roster} (first : SameSpace d s r) (second : SameSpace d r t) :
    SameSpace d s t := by
  cases d with
  | inbound => exact Eq.trans first second
  | outbound => exact ⟨first.1.trans second.1, first.2.trans second.2⟩

theorem eq_other {d e : Direction} (apart : d ≠ e) : e = d.other := by
  cases d <;> cases e <;> first | rfl | exact absurd rfl apart

/-- What an operation answers on a roster, and the roster after it. The search for an identifier ends: it is
given as many turns as it may need. -/
def Yields (r : Roster) (op : Operation) (answer : Except ExchangeError Report) (r' : Roster) : Prop :=
  ∀ turns, idSpace ≤ turns → r.perform turns op = some (answer, r')

theorem yields_iff {r r' : Roster} {op : Operation} {answer : Except ExchangeError Report} :
    Yields r op answer r' ↔ r.perform idSpace op = some (answer, r') := by
  refine ⟨fun yields => yields idSpace (Nat.le_refl _), fun ended turns enough => ?_⟩
  rw [← Nat.add_sub_of_le enough]
  exact perform_more _ ended

/-- **One operation, seen from either space.** It answers the same on any roster with the same exchanges in a
space that it concerns, and leaves these the same; it does not change a space that it does not concern. -/
theorem perform_apart (r : Roster) (op : Operation) :
    ∃ answer r', Yields r op answer r' ∧ ∀ d s, SameSpace d s r →
      if op.concerns d then ∃ s', Yields s op answer s' ∧ SameSpace d s' r' else SameSpace d s r' := by
  simp only [yields_iff, Operation.concerns]
  cases own : op.space? with
  | none =>
    obtain rfl : op = .clear := by cases op <;> first | rfl | cases own
    refine ⟨.ok .done, r.clear, rfl, fun d s same => ⟨s.clear, rfl, ?_⟩⟩
    cases d with
    | inbound => rfl
    | outbound => exact ⟨rfl, same.2⟩
  | some d =>
    have steps := contained_steps own
    obtain ⟨answer, r', here, kept⟩ := steps r r
    refine ⟨answer, r', here, fun e s same => ?_⟩
    by_cases about : d = e
    · subst about
      obtain ⟨answer', r'', here', there⟩ := steps r s
      cases here.symm.trans here'
      rw [← same.eq_graft] at there
      simpa using ⟨_, there, sameSpace_graft_other r' d s⟩
    · obtain rfl := eq_other about
      rw [graft_self, here] at kept
      have unchanged : r' = r'.graft d.other r := congrArg Prod.snd (Option.some.inj kept)
      have kept := sameSpace_graft r' d.other r
      rw [← unchanged] at kept
      rw [if_neg (by simpa using about)]
      exact same.trans kept

/-! ## Interleavings -/

/-- What operations answer, one after the other, and the roster after them. -/
def performAll (turns : Nat) : List Operation → Roster → Option (List Entry × Roster)
  | [], r => some ([], r)
  | op :: ops, r => do
    let (answer, r') ← r.perform turns op
    let (later, r'') ← performAll turns ops r'
    return ((op, answer) :: later, r'')

theorem performAll_cons {turns : Nat} {op : Operation} {ops : List Operation} {r r' r'' : Roster}
    {answer : Except ExchangeError Report} {later : List Entry} (first : r.perform turns op = some (answer, r'))
    (rest : performAll turns ops r' = some (later, r'')) :
    performAll turns (op :: ops) r = some ((op, answer) :: later, r'') := by
  simp [performAll, first, rest]

/-- **The two spaces have nothing to do with each other.** Any operations, in any order and on any roster, come
to an end. The answers of those that concern a space, and the exchanges that are in it at the end, are what they
are if these operations are carried out alone; and so is the next identifier, for the outbound ones. -/
theorem performAll_apart (r : Roster) (ops : List Operation) :
    ∃ history r', (∀ turns, idSpace ≤ turns → performAll turns ops r = some (history, r')) ∧
      ∀ d, ∃ s, SameSpace d s r' ∧ ∀ turns, idSpace ≤ turns →
        performAll turns (ops.filter (·.concerns d)) r = some (history.filter (·.1.concerns d), s) := by
  -- The operations alone run on a roster of their own, which shares the space.
  suffices h : ∃ history r', (∀ turns, idSpace ≤ turns → performAll turns ops r = some (history, r')) ∧
      ∀ d s, SameSpace d s r → ∃ s', SameSpace d s' r' ∧ ∀ turns, idSpace ≤ turns →
        performAll turns (ops.filter (·.concerns d)) s = some (history.filter (·.1.concerns d), s') by
    obtain ⟨history, r', whole, alone⟩ := h
    exact ⟨history, r', whole, fun d => alone d r (.refl d r)⟩
  induction ops generalizing r with
  | nil => exact ⟨[], r, fun _ _ => rfl, fun _ s same => ⟨s, same, fun _ _ => rfl⟩⟩
  | cons op ops ih =>
    obtain ⟨answer, r', first, sides⟩ := perform_apart r op
    obtain ⟨later, r'', rest, alone⟩ := ih r'
    refine ⟨(op, answer) :: later, r'', fun turns enough =>
      performAll_cons (first turns enough) (rest turns enough), fun d s same => ?_⟩
    have side := sides d s same
    by_cases concerned : op.concerns d
    · rw [if_pos concerned] at side
      obtain ⟨s', there, same'⟩ := side
      obtain ⟨s'', same'', rest'⟩ := alone d s' same'
      refine ⟨s'', same'', fun turns enough => ?_⟩
      rw [List.filter_cons, if_pos concerned, List.filter_cons, if_pos concerned]
      exact performAll_cons (there turns enough) (rest' turns enough)
    · rw [if_neg concerned] at side
      obtain ⟨s'', same'', rest'⟩ := alone d s side
      refine ⟨s'', same'', fun turns enough => ?_⟩
      rw [List.filter_cons, if_neg concerned, List.filter_cons, if_neg concerned]
      exact rest' turns enough

end Roster
end MqttLink
