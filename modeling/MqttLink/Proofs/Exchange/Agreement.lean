import MqttLink.Proofs.Exchange.Operations
/-!
# The records say what the exchanges say

A `Roster` and an `InFlight` agree if under every identifier they show the same exchange. Then every
operation answers the same on both and leaves them in agreement: `Agrees.perform` is the step, and
`After.agrees` carries it along a history. In particular every operation comes to an end, the search
for a free identifier included.
-/

namespace MqttLink

open InFlight (Direction Exchange Stage tried successor idSpace)
open Roster (Operation Report)

namespace Roster

/-! ## Steps -/

section

variable {α β : Type} {r : Roster}

@[simp] theorem outcome_throw (e : ExchangeError) :
    (throw e : Step α).outcome r = some (.error e, r) := rfl

@[simp] theorem outcome_modify (change : Roster → Roster) :
    (modify change : Step PUnit).outcome r = some (.ok ⟨⟩, change r) := rfl

@[simp] theorem get_bind (next : Roster → Step β) :
    (get >>= next : Step β).outcome r = (next r).outcome r := rfl

@[simp] theorem set_bind (s : Roster) (next : PUnit → Step β) :
    (set s >>= next : Step β).outcome r = (next ⟨⟩).outcome s := rfl

theorem outcome_bind (x : Step α) (next : α → Step β) :
    (x >>= next).outcome r = (x.outcome r).bind fun
      | (.ok a, r') => (next a).outcome r'
      | (.error e, r') => some (.error e, r') := by
  unfold Step.outcome
  rw [ExceptT.run_bind, StateT.run_bind]
  refine congrArg (Option.bind _) (funext fun ⟨answer, r'⟩ => ?_)
  cases answer <;> rfl

/-- What follows a step that goes through starts where that step has ended. -/
theorem bind_ok {x : Step α} {next : α → Step β} {a : α} {r' : Roster}
    (first : x.outcome r = some (.ok a, r')) : (x >>= next).outcome r = (next a).outcome r' := by
  rw [outcome_bind, first]
  rfl

/-- Nothing follows a step that fails. -/
theorem bind_error {x : Step α} {next : α → Step β} {e : ExchangeError} {r' : Roster}
    (first : x.outcome r = some (.error e, r')) : (x >>= next).outcome r = some (.error e, r') := by
  rw [outcome_bind, first]
  rfl

/-- A step that ends as another one does can stand in its place once that one has ended. -/
theorem bind_ended {x y : Step α} {next : α → Step β} {result : Except ExchangeError β × Roster}
    (same : ∀ first, x.outcome r = some first → y.outcome r = some first)
    (ended : (x >>= next).outcome r = some result) : (y >>= next).outcome r = some result := by
  rw [outcome_bind] at ended ⊢
  obtain ⟨first, done, rest⟩ := Option.bind_eq_some_iff.1 ended
  rw [same first done]
  exact rest

end

/-! ## The search -/

theorem findId_succ (r : Roster) (turns : Nat) :
    (findId (turns + 1)).outcome r =
      if r.outbound.contains r.next then (findId turns).outcome { r with next := successor r.next }
      else some (.ok r.next, { r with next := successor r.next }) := by
  rw [findId, get_bind, set_bind]
  split <;> rfl

/-- **The search ends** with the first identifier it meets that is not taken. -/
theorem findId_outcome {r : Roster} {k turns : Nat} (reach : k < turns)
    (taken : ∀ j < k, r.outbound.contains (tried r.next j) = true)
    (free : r.outbound.contains (tried r.next k) = false) :
    (findId turns).outcome r =
      some (.ok (tried r.next k), { r with next := successor (tried r.next k) }) := by
  induction turns generalizing r k with
  | zero => exact absurd reach (Nat.not_lt_zero k)
  | succ turns ih =>
    rw [findId_succ]
    cases k with
    | zero =>
      rw [tried] at free ⊢
      rw [free]
      rfl
    | succ k =>
      have first : r.outbound.contains r.next = true := taken 0 (Nat.succ_pos k)
      rw [if_pos first]
      exact ih (Nat.lt_of_succ_lt_succ reach) (fun j below => taken (j + 1) (Nat.succ_lt_succ below)) free

/-- A search that has ended is not changed by more turns. -/
theorem findId_more {r : Roster} {turns : Nat} (more : Nat) {result : Except ExchangeError PacketId × Roster}
    (ended : (findId turns).outcome r = some result) : (findId (turns + more)).outcome r = some result := by
  induction turns generalizing r with
  | zero => cases ended
  | succ turns ih =>
    rw [Nat.add_right_comm, findId_succ] at *
    split at ended
    · rename_i taken
      rw [if_pos taken]
      exact ih ended
    · rename_i free
      rw [if_neg free]
      exact ended

/-- A table with no room turns a message down before the search begins. -/
theorem register_full {r : Roster} {m : Publish} (turns : Nat) (level : m.qos ≠ .atMostOnce)
    (full : idSpace ≤ r.outbound.size) :
    (register turns m).outcome r = some (.error .packetIdsExhausted, r) := by
  have turnedDown : (allocateId turns).outcome r = some (.error .packetIdsExhausted, r) := by
    unfold allocateId
    rw [get_bind, if_pos full]
    rfl
  unfold register
  rw [if_neg level]
  exact bind_error turnedDown

/-- A message is put down under the identifier that the search comes to. -/
theorem register_free {r : Roster} {m : Publish} {k turns : Nat} (reach : k < turns)
    (level : m.qos ≠ .atMostOnce) (room : r.outbound.size < idSpace)
    (before : ∀ j < k, r.outbound.contains (tried r.next j) = true)
    (free : r.outbound.contains (tried r.next k) = false) :
    (register turns m).outcome r = some (.ok { m with packetId := some (tried r.next k) },
      { r with
        outbound := r.outbound.insert (tried r.next k)
          ⟨tried r.next k, .outbound, m.qos, .sent, some { m with packetId := some (tried r.next k) }⟩
        next := successor (tried r.next k) }) := by
  have found : (allocateId turns).outcome r =
      some (.ok (tried r.next k), { r with next := successor (tried r.next k) }) := by
    unfold allocateId
    rw [get_bind, if_neg (Nat.not_le_of_lt room)]
    exact findId_outcome reach before free
  unfold register
  rw [if_neg level]
  exact bind_ok found

/-! ## Agreement -/

/-- The records and the exchanges show the same under every identifier. -/
structure Agrees (r : Roster) (f : InFlight) : Prop where
  shown : ∀ direction id, r.get? direction id = f.get? direction id
  outboundSize : r.outbound.size = f.outgoing.size
  inboundSize : r.inbound.size = f.incoming.size
  next : r.next = f.next

namespace Agrees

variable {r : Roster} {f : InFlight}

theorem empty : Agrees .empty .empty where
  shown direction id := by cases direction <;> simp [Roster.empty, InFlight.empty, Roster.get?, InFlight.get?]
  outboundSize := rfl
  inboundSize := rfl
  next := rfl

theorem outbound (agree : Agrees r f) (id : PacketId) :
    r.outbound[id]? = f.outgoing[id]?.map (InFlight.Outgoing.describe id) := agree.shown .outbound id

theorem inbound (agree : Agrees r f) (id : PacketId) :
    r.inbound[id]? =
      if f.incoming.contains id then some ⟨id, .inbound, .exactlyOnce, .received, none⟩ else none :=
  agree.shown .inbound id

theorem outbound_contains (agree : Agrees r f) (id : PacketId) :
    r.outbound.contains id = f.outgoing.contains id := by
  simp only [Std.TreeMap.contains_eq_isSome_getElem?, agree.outbound, Option.isSome_map]

theorem inbound_contains (agree : Agrees r f) (id : PacketId) :
    r.inbound.contains id = f.incoming.contains id := by
  rw [Std.TreeMap.contains_eq_isSome_getElem?, agree.inbound]
  cases f.incoming.contains id <;> rfl

/-! ### Changes on both sides -/

theorem renumber (agree : Agrees r f) (id : PacketId) :
    Agrees { r with next := id } { f with next := id } where
  shown := agree.shown
  outboundSize := agree.outboundSize
  inboundSize := agree.inboundSize
  next := rfl

theorem insertOutbound (agree : Agrees r f) (id : PacketId) (x : Outgoing) :
    Agrees { r with outbound := r.outbound.insert id (InFlight.Outgoing.describe id x) }
      { f with outgoing := f.outgoing.insert id x } where
  shown direction k := by
    cases direction with
    | inbound => exact agree.inbound k
    | outbound =>
      simp only [Roster.get?, InFlight.get?, getElem?_insert_id, agree.outbound]
      by_cases same : id = k
      · subst same; simp
      · simp [same]
  outboundSize := by
    simp only [Std.TreeMap.size_insert, agree.outbound_contains, agree.outboundSize]
  inboundSize := agree.inboundSize
  next := agree.next

theorem eraseOutbound (agree : Agrees r f) (id : PacketId) :
    Agrees { r with outbound := r.outbound.erase id } { f with outgoing := f.outgoing.erase id } where
  shown direction k := by
    cases direction with
    | inbound => exact agree.inbound k
    | outbound =>
      simp only [Roster.get?, InFlight.get?, getElem?_erase_id, agree.outbound]
      split <;> rfl
  outboundSize := by
    simp only [Std.TreeMap.size_erase, agree.outbound_contains, agree.outboundSize]
  inboundSize := agree.inboundSize
  next := agree.next

theorem insertInbound (agree : Agrees r f) (id : PacketId) :
    Agrees { r with inbound := r.inbound.insert id ⟨id, .inbound, .exactlyOnce, .received, none⟩ }
      { f with incoming := f.incoming.insert id } where
  shown direction k := by
    cases direction with
    | outbound => exact agree.outbound k
    | inbound =>
      simp only [Roster.get?, InFlight.get?, getElem?_insert_id, contains_insert_id, agree.inbound]
      by_cases same : id = k
      · subst same; simp
      · simp [same]
  outboundSize := agree.outboundSize
  inboundSize := by
    simp only [Std.TreeMap.size_insert, Std.TreeSet.size_insert, agree.inbound_contains, agree.inboundSize]
  next := agree.next

theorem eraseInbound (agree : Agrees r f) (id : PacketId) :
    Agrees { r with inbound := r.inbound.erase id } { f with incoming := f.incoming.erase id } where
  shown direction k := by
    cases direction with
    | outbound => exact agree.outbound k
    | inbound =>
      simp only [Roster.get?, InFlight.get?, getElem?_erase_id, contains_erase_id, agree.inbound]
      by_cases same : id = k
      · subst same; simp
      · simp [same]
  outboundSize := agree.outboundSize
  inboundSize := by
    simp only [Std.TreeMap.size_erase, Std.TreeSet.size_erase, agree.inbound_contains, agree.inboundSize]
  next := agree.next

theorem clear (agree : Agrees r f) : Agrees r.clear f.clear where
  shown direction id := by
    cases direction <;> simp [Roster.clear, InFlight.clear, Roster.get?, InFlight.get?]
  outboundSize := rfl
  inboundSize := rfl
  next := agree.next

/-! ### Steps on both sides -/

/-- A step on the records does what is done to the exchanges: it answers the same and leaves the two in
agreement, or fails with the same error and changes nothing. -/
def Follows {α : Type} (r : Roster) (x : Step α) : Except ExchangeError (α × InFlight) → Prop
  | .ok (a, g) => ∃ r', x.outcome r = some (.ok a, r') ∧ Agrees r' g
  | .error e => x.outcome r = some (.error e, r)

/-- The operation that consists of such a step. -/
theorem settled {α : Type} {x : Step α} {y : Except ExchangeError (α × InFlight)}
    (agree : Agrees r f) (report : α → Report) (step : Follows r x y) :
    ∃ r', (x >>= fun a => pure (report a) : Step Report).outcome r = some ((f.settle report y).1, r') ∧
      Agrees r' (f.settle report y).2 := by
  cases y with
  | error e => exact ⟨r, bind_error step, agree⟩
  | ok granted =>
    obtain ⟨r', outcome, after⟩ := step
    exact ⟨r', bind_ok outcome, after⟩

/-- Steps that begin with the record of an exchange follow what is done about that exchange. -/
theorem entry_bind {α : Type} {id : PacketId} {next : Exchange → Step α}
    {done : Except ExchangeError (α × InFlight)} (agree : Agrees r f)
    (fails : ∀ e, f.outgoingAt id = .error e → done = .error e)
    (step : ∀ x, f.outgoingAt id = .ok x → Follows r (next (InFlight.Outgoing.describe id x)) done) :
    Follows r (entry id >>= next) done := by
  have found : (entry id).outcome r =
      some ((f.outgoingAt id).map (InFlight.Outgoing.describe id), r) := by
    unfold entry InFlight.outgoingAt
    by_cases zero : id = 0
    · rw [if_pos zero, if_pos zero]
      rfl
    · rw [if_neg zero, if_neg zero]
      simp only [get_bind, agree.outbound]
      cases f.outgoing[id]? <;> rfl
  cases known : f.outgoingAt id with
  | error e =>
    rw [known] at found
    rw [fails e known]
    exact bind_error found
  | ok x =>
    rw [known] at found
    have follows := step x known
    have first : (entry id >>= next).outcome r = _ := bind_ok found
    unfold Follows at *
    rwa [first]

section

variable (agree : Agrees r f) (id : PacketId)

include agree

theorem puback : Follows r (onPuback id) ((f.onPuback id).map ((), ·)) := by
  unfold InFlight.onPuback
  refine agree.entry_bind (fun e known => by rw [known]; rfl) fun x known => ?_
  rw [known]
  cases x with
  | received => rfl
  | sent m =>
    change Follows r _ (Except.map _ (if m.qos = .atLeastOnce then _ else _))
    by_cases level : m.qos = .atLeastOnce
    · rw [if_pos level]
      exact ⟨_, by simp [InFlight.Outgoing.describe, level], agree.eraseOutbound id⟩
    · rw [if_neg level]
      simp [Follows, Except.map, InFlight.Outgoing.describe, level]

theorem pubrec : Follows r (onPubrec id) ((f.onPubrec id).map ((), ·)) := by
  unfold InFlight.onPubrec
  refine agree.entry_bind (fun e known => by rw [known]; rfl) fun x known => ?_
  rw [known]
  cases x with
  | received => rfl
  | sent m =>
    change Follows r _ (Except.map _ (if m.qos = .exactlyOnce then _ else _))
    by_cases level : m.qos = .exactlyOnce
    · rw [if_pos level]
      exact ⟨_, by simp [InFlight.Outgoing.describe, level], agree.insertOutbound id .received⟩
    · rw [if_neg level]
      simp [Follows, Except.map, InFlight.Outgoing.describe, level]

theorem pubcomp : Follows r (onPubcomp id) ((f.onPubcomp id).map ((), ·)) := by
  unfold InFlight.onPubcomp
  refine agree.entry_bind (fun e known => by rw [known]; rfl) fun x known => ?_
  rw [known]
  cases x with
  | received => exact ⟨_, rfl, agree.eraseOutbound id⟩
  | sent m =>
    change Step.outcome _ r = some (.error (.unexpectedStage id), r)
    simp [InFlight.Outgoing.describe]

theorem retransmit : Follows r (Roster.retransmit id) (f.retransmit id) := by
  unfold InFlight.retransmit
  refine agree.entry_bind (fun e known => by rw [known]; rfl) fun x known => ?_
  rw [known]
  cases x with
  | received => exact ⟨r, rfl, agree⟩
  | sent m => exact ⟨_, rfl, agree.insertOutbound id (.sent { m with dup := true })⟩

theorem pubrel : Follows r (onPubrel id) ((f.onPubrel id).map ((), ·)) := by
  unfold onPubrel InFlight.onPubrel
  by_cases zero : id = 0
  · rw [if_pos zero, if_pos zero]
    rfl
  · rw [if_neg zero, if_neg zero]
    unfold Follows
    simp only [get_bind, agree.inbound_contains]
    cases f.incoming.contains id with
    | true => exact ⟨_, rfl, agree.eraseInbound id⟩
    | false => rfl

end

theorem publish (agree : Agrees r f) (m : Publish) : Follows r (onPublish m) (f.onPublish m) := by
  unfold onPublish InFlight.onPublish
  have required {α : Type} {next : PacketId → Step α}
      {done : PacketId → Except ExchangeError (α × InFlight)} (step : ∀ id, Follows r (next id) (done id)) :
      Follows r (InFlight.requireId m >>= next : Step α) (InFlight.requireId m >>= done) := by
    cases InFlight.requireId m with
    | error e => rfl
    | ok id => exact step id
  cases m.qos with
  | atMostOnce => exact ⟨r, rfl, agree⟩
  | atLeastOnce => exact required fun _ => ⟨r, rfl, agree⟩
  | exactlyOnce =>
    refine required fun id => ?_
    unfold Follows
    simp only [get_bind, agree.inbound_contains]
    cases f.incoming.contains id with
    | true => exact ⟨r, rfl, agree⟩
    | false => exact ⟨_, rfl, agree.insertInbound id⟩

/-- A table with room leaves an identifier free, and the search ends with it in time. -/
theorem register (agree : Agrees r f) {turns : Nat} (enough : idSpace ≤ turns) (m : Publish) :
    Follows r (Roster.register turns m) (f.register m) := by
  unfold InFlight.register
  by_cases level : m.qos = .atMostOnce
  · rw [if_pos level]
    unfold Roster.register
    rw [if_pos level]
    exact ⟨r, rfl, agree⟩
  · rw [if_neg level]
    by_cases full : idSpace ≤ f.outgoing.size
    · rw [InFlight.freeId?_eq_none.2 full]
      exact register_full turns level (agree.outboundSize ▸ full)
    · have room := Nat.lt_of_not_le full
      obtain ⟨k, reach, before, free⟩ := InFlight.exists_free f.next room
      rw [InFlight.freeId?_eq_some room reach before free]
      simp only [← agree.outbound_contains, ← agree.outboundSize, ← agree.next] at room before free ⊢
      exact ⟨_, register_free (Nat.lt_of_lt_of_le reach enough) level room before free,
        (agree.renumber (successor (tried r.next k))).insertOutbound
          (tried r.next k) (.sent { m with packetId := some (tried r.next k) })⟩

/-- **Every operation comes to an end**, answers what the exchanges answer, and keeps the agreement. -/
theorem perform (agree : Agrees r f) {turns : Nat} (enough : idSpace ≤ turns) (op : Operation) :
    ∃ r', r.perform turns op = some ((f.perform op).1, r') ∧ Agrees r' (f.perform op).2 := by
  -- An operation that only looks at the roster reports what the exchanges show.
  have looks {a b : Report} (same : a = b) :
      ∃ r', some (Except.ok a, r) = some ((Except.ok b : Except ExchangeError Report), r') ∧ Agrees r' f :=
    ⟨r, by rw [same], agree⟩
  cases op with
  | register m => exact agree.settled .numbered (agree.register enough m)
  | puback id => exact agree.settled (fun _ => .done) (agree.puback id)
  | pubrec id => exact agree.settled (fun _ => .done) (agree.pubrec id)
  | pubcomp id => exact agree.settled (fun _ => .done) (agree.pubcomp id)
  | retransmit id => exact agree.settled .again (agree.retransmit id)
  | publish m => exact agree.settled .taken (agree.publish m)
  | pubrel id => exact agree.settled (fun _ => .done) (agree.pubrel id)
  | isIncoming id => exact looks (congrArg Report.held (agree.inbound_contains id))
  | get direction id => exact looks (congrArg Report.exchange (agree.shown direction id))
  | size direction =>
    cases direction with
    | inbound => exact looks (congrArg Report.count agree.inboundSize)
    | outbound => exact looks (congrArg Report.count agree.outboundSize)
  | clear => exact ⟨_, rfl, agree.clear⟩

end Agrees

/-- An operation that has ended is not changed by more turns. -/
theorem perform_more {r : Roster} {turns : Nat} (more : Nat) {op : Operation}
    {result : Except ExchangeError Report × Roster} (ended : r.perform turns op = some result) :
    r.perform (turns + more) op = some result := by
  cases op with
  | register m =>
    refine bind_ended (fun first done => ?_) ended
    unfold register at done ⊢
    split at done
    · rename_i level
      rw [if_pos level]
      exact done
    · rename_i level
      rw [if_neg level]
      refine bind_ended (fun found allocated => ?_) done
      unfold allocateId at allocated ⊢
      rw [get_bind] at allocated ⊢
      split at allocated
      · rename_i full
        rw [if_pos full]
        exact allocated
      · rename_i room
        rw [if_neg room]
        exact findId_more more allocated
  | size direction => cases direction <;> exact ended
  | _ => exact ended

/-! ## Histories -/

/-- The roster after some operations, the first of which found it empty. Each of them has ended. -/
inductive After : List InFlight.Entry → Roster → Prop where
  | start : After [] empty
  | next {past : List InFlight.Entry} {r r' : Roster} {op : Operation}
    {answer : Except ExchangeError Report} (before : After past r) (turns : Nat)
    (ends : r.perform turns op = some (answer, r')) : After (past ++ [(op, answer)]) r'

/-- **What a roster has been through, the exchanges have been through.** -/
theorem After.agrees {past : List InFlight.Entry} {r : Roster} (h : After past r) :
    ∃ f, InFlight.After past f ∧ Agrees r f := by
  induction h with
  | start => exact ⟨.empty, .start, .empty⟩
  | @next past r r' op answer before turns ends ih =>
    obtain ⟨f, same, agree⟩ := ih
    obtain ⟨s, answered, after⟩ := agree.perform (Nat.le_add_left idSpace turns) op
    rw [perform_more idSpace ends] at answered
    cases answered
    exact ⟨_, same.next op, after⟩

end Roster

/-- **What the exchanges have been through, a roster has been through.** -/
theorem InFlight.After.agrees {past : List InFlight.Entry} {f : InFlight} (h : InFlight.After past f) :
    ∃ r, Roster.After past r ∧ Roster.Agrees r f := by
  induction h with
  | start => exact ⟨.empty, .start, .empty⟩
  | @next past f before op ih =>
    obtain ⟨r, same, agree⟩ := ih
    obtain ⟨r', answered, after⟩ := agree.perform (Nat.le_refl idSpace) op
    exact ⟨r', same.next idSpace answered, after⟩

end MqttLink
