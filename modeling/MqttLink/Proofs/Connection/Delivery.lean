import MqttLink.Proofs.Connection.HeldBack
/-!
# Every event reaches the application

An event comes from the endpoint into the backlog, from there into the channel, and from there to the
application; from the backlog it is moved by a flush or as soon as there is room. Whatever the order of all
this, what the application has taken, what is in the channel and what is in the backlog make up what the
endpoint has told, in order (`Delivery`, `events_delivered`), until the application drops its end.

A connection takes over at once what its endpoint tells, so the backlog here ends with the events that the
endpoint itself might still hold. No packet is read any earlier or later for that: as long as the
connection is open, only packets make its endpoint tell anything (`Course.serve_backlog`).
-/

namespace MqttLink

namespace Endpoint

open Reaction

/-! ## The end of a story -/

/-- Once the connection is over, its end is the last that has been told. -/
theorem Chapter.last {past : List Moment} {e : Endpoint} (h : Chapter past e) (gone : e.isClosed = true) :
    ∃ front reason will, told past = front ++ [.closed reason will] ∧ ∀ event ∈ front, event.isEnd = false := by
  have once : ends (told past) = 1 := by rw [h.ends_told, gone]; rfl
  have story := h.story
  generalize told past = events at once story
  cases story with
  | nothing => cases once
  | stillborn reason will => exact ⟨[], reason, will, rfl, List.forall_mem_nil _⟩
  | underway c doings quiet =>
    rw [← List.singleton_append, ends_append, ends_data quiet] at once
    cases once
  | complete c doings quiet reason will =>
    refine ⟨.connectRequest c :: doings, reason, will, rfl, ?_⟩
    intro event he
    rcases List.mem_cons.1 he with rfl | he
    · rfl
    · exact Event.isEnd_data (quiet event he)

/-! ## Packets behind CONNECT -/

/-- No packet waits for the decision about CONNECT. -/
def NothingHeld (e : Endpoint) : Prop := ∀ due held, e.handshake = .deciding due held → held = #[]

theorem nothingHeld_over {e : Endpoint} (decided : e.handshake = .over) : NothingHeld e := by
  intro due held asked
  rw [decided] at asked
  cases asked

theorem Move.nothingHeld {now : Instant} {e : Endpoint} {d : Deed} {answer : Option Answer} {r : Reaction}
    (move : Move now e d answer r) (h : NothingHeld e)
    (apart : (∀ p, d ≠ .input (.packet p)) ∨ e.isAwaitingDecision = false) : NothingHeld r.endpoint := by
  cases move with
  | ignored | idle | denied => exact h
  | asked =>
    intro due held asked
    cases asked
    rfl
  | deferred _ asked =>
    rcases apart with other | decided
    · exact absurd rfl (other _)
    · simp [isAwaitingDecision, asked] at decided
  | welcomed | refused | ended => exact nothingHeld_over rfl
  | served _ fits =>
    intro due held asked
    rw [fits.same_stage.2] at asked
    exact h due held asked
  | granted _ fits =>
    intro due held asked
    rw [fits.same_stage.2.1] at asked
    exact h due held asked

/-- An accept behind which no packet waits is only the welcome. -/
theorem step_welcome {e : Endpoint} (h : NothingHeld e) (now : Instant) (present : Bool)
    (able : e.canAccept = true) : (e.step now (.action (.accept present))).2 = e.welcome now present := by
  obtain ⟨opened, due, held, asked⟩ := canAccept_iff.1 able
  rw [step_accept now present opened asked, h due held asked]
  rfl

theorem step_nothingHeld {e : Endpoint} (h : NothingHeld e) (now : Instant) (input : Input)
    (apart : (∀ p, input ≠ .packet p) ∨ e.isAwaitingDecision = false) :
    NothingHeld (e.step now input).2.endpoint := by
  rcases possible_or_accept e input with single | ⟨present, rfl, able⟩
  · refine (perform_move now single).nothingHeld h (apart.imp_left fun other p same => ?_)
    exact other p (Deed.input.inj same)
  · rw [step_welcome h now present able]
    exact nothingHeld_over rfl

/-- A request that leaves the connection open tells the application nothing. -/
theorem step_action_silent {e : Endpoint} (h : NothingHeld e) (now : Instant) (a : Action)
    (opened : (e.step now (.action a)).2.endpoint.isClosed = false) :
    (e.step now (.action a)).2.events = #[] := by
  rcases possible_or_accept e (.action a) with single | ⟨present, same, able⟩
  · have move := perform_move now single
    change Move now e (.input (.action a)) (e.step now (.action a)).1 (e.step now (.action a)).2 at move
    generalize (e.step now (.action a)).1 = answer, (e.step now (.action a)).2 = r at move opened
    cases move with
    | ignored | denied => rfl
    | granted _ fits => exact fits.same_stage.2.2
    | refused | ended => cases opened
  · cases same
    rw [step_welcome h now present able]
    rfl

/-- Without packets none is held back. -/
theorem run_nothingHeld {e : Endpoint} {inputs : List (Instant × Input)} (h : NothingHeld e)
    (apart : ∀ x ∈ inputs, ∀ p, x.2 ≠ .packet p) : NothingHeld (e.run inputs).endpoint := by
  induction inputs generalizing e with
  | nil => exact h
  | cons x rest ih =>
    obtain ⟨now, input⟩ := x
    rw [endpoint_run_cons]
    exact ih (step_nothingHeld h now input (.inl (apart _ List.mem_cons_self)))
      fun x hx => apart x (List.mem_cons_of_mem _ hx)

end Endpoint

namespace Connection

open Wire

/-! ## What the endpoint has to tell -/

theorem workOff_nothingHeld (c : Connection) (h : c.endpoint.NothingHeld) :
    c.workOff.endpoint.NothingHeld := by
  induction c using workOff_induction with
  | shut c reads => rw [(workOff_shut reads).1]; exact h
  | incomplete c reads found => rw [(workOff_incomplete reads found).1]; exact h
  | fault c error reads found =>
    rw [(workOff_fault reads found).1]
    exact Endpoint.step_nothingHeld h c.now (.decodeError error) (.inl (by simp))
  | packet c p size reads found ih =>
    rw [(workOff_packet reads found).1]
    exact ih (Endpoint.step_nothingHeld h c.now (.packet p) (.inr (isReading_iff.1 reads).2.1))

theorem call_apart (c : Connection) :
    ∀ x ∈ c.stamped (c.desk.waiting.head?.map Call.input).toList, ∀ p, x.2 ≠ .packet p := by
  refine List.forall_mem_map.2 fun input put p => ?_
  cases waiting : c.desk.waiting with
  | nil => simp [waiting] at put
  | cons call rest => cases call <;> simp_all [Call.input]

theorem perform_nothingHeld {c : Connection} (d : Deed) (h : c.endpoint.NothingHeld) :
    (c.perform d).endpoint.NothingHeld := by
  cases looks : d.looks with
  | false =>
    rw [perform_endpoint]
    refine Endpoint.run_nothingHeld h (List.forall_mem_map.2 fun input put p same => ?_)
    have plain := blind_inputs c looks put
    simp [Input.IsPlain, show input = .packet p from same] at plain
  | true =>
    cases d with
    | wake w =>
      cases w with
      | bytes count => exact workOff_nothingHeld (c.readBytes count) h
      | room => exact workOff_nothingHeld c.moveOldest (by rw [moveOldest_eq]; exact h)
      | call =>
        refine workOff_nothingHeld c.serve ?_
        rw [serve_eq]
        exact Endpoint.run_nothingHeld h c.call_apart
      | _ => cases looks
    | _ => cases looks

/-- **Nothing piles up behind CONNECT**: while the decision is due, no packet is read. -/
theorem Course.nothingHeld {setup : ConnectionSetup} {past : List Leg} {stage : Stage} {c : Connection}
    (h : Course setup past stage c) : c.endpoint.NothingHeld := by
  induction h with
  | start =>
    intro due held asked
    cases asked
  | next d before allowed ih => exact perform_nothingHeld d ih

/-- As long as the connection is open, a call that is served adds nothing to the backlog. -/
theorem Course.serve_backlog {setup : ConnectionSetup} {past : List Leg} {stage : Stage} {c : Connection}
    (h : Course setup past stage c) (opened : c.serve.endpoint.isClosed = false) :
    c.serve.backlog = c.backlog := by
  rw [serve_eq, absorb_endpoint] at opened
  rw [serve_eq]
  have silent : (c.endpoint.run (c.stamped (c.desk.waiting.head?.map Call.input).toList)).events = #[] := by
    cases waiting : c.desk.waiting with
    | nil => rfl
    | cons call rest =>
      simp only [waiting, List.head?_cons, Option.map_some, Option.toList_some, run_one] at opened ⊢
      cases call with
      | request ticket action => exact Endpoint.step_action_silent h.nothingHeld c.now action opened
      | close =>
        exact absurd (c.endpoint.closeWith_closes .applicationClosed)
          (by rw [Bool.not_eq_true]; exact opened)
  simp [absorb, silent]

/-! ## The way of an event -/

/-- The events that the application takes with a deed. -/
def takenBy (c : Connection) : Deed → List Event
  | .outside .takeEvent => c.channel.queue.head?.toList
  | _ => []

/-- The events that a deed moves to the channel. -/
def deliveredBy (c : Connection) : Deed → List Event
  | .pass | .wake .room => if c.channel.listening then c.backlog.head?.toList else []
  | _ => []

/-- What the application has taken. -/
def taken (past : List Leg) : List Event := past.flatMap fun m => m.before.takenBy m.deed

/-- What has been moved to the channel. -/
def delivered (past : List Leg) : List Event := past.flatMap fun m => m.before.deliveredBy m.deed

theorem taken_snoc (past : List Leg) (c : Connection) (d : Deed) :
    taken (past ++ [⟨c, d⟩]) = taken past ++ c.takenBy d := by simp [taken]

theorem delivered_snoc (past : List Leg) (c : Connection) (d : Deed) :
    delivered (past ++ [⟨c, d⟩]) = delivered past ++ c.deliveredBy d := by simp [delivered]

/-- How what has been told is spread: some is delivered, some of that is taken, and the rest waits. -/
structure Delivery (told delivered taken : List Event) (channel : Channel) (backlog : List Event)
    (delivering : Bool) : Prop where
  /-- Nothing is lost between the endpoint and the channel, -/
  whole : delivering = true → delivered ++ backlog = told
  /-- and what goes to the channel goes there in order. -/
  ordered : delivered <+: told
  /-- Nothing is lost in the channel, -/
  queued : channel.listening = true → taken ++ channel.queue = delivered
  /-- and what is taken is taken in order. -/
  inTurn : taken <+: delivered
  /-- Nothing is kept for an application that has dropped its end. -/
  dropped : channel.listening = false → channel.queue = []
  noticed : delivering = false → channel.listening = false ∧ backlog = []

namespace Delivery

variable {told delivered taken backlog : List Event} {channel : Channel} {delivering : Bool}

/-- An application that listens is delivered to. -/
theorem delivers (h : Delivery told delivered taken channel backlog delivering)
    (listens : channel.listening = true) : delivering = true := by
  cases delivering with
  | true => rfl
  | false => rw [(h.noticed rfl).1] at listens; cases listens

theorem tell (h : Delivery told delivered taken channel backlog delivering) (more : List Event) :
    Delivery (told ++ more) delivered taken channel (if delivering then backlog ++ more else backlog)
      delivering where
  whole on := by rw [if_pos on, ← List.append_assoc, h.whole on]
  ordered := h.ordered.trans (List.prefix_append told more)
  queued := h.queued
  inTurn := h.inTurn
  dropped := h.dropped
  noticed off := by rw [off]; exact h.noticed off

theorem deliver {event : Event} {rest : List Event}
    (h : Delivery told delivered taken channel backlog delivering) (oldest : backlog = event :: rest)
    (listens : channel.listening = true) :
    Delivery told (delivered ++ [event]) taken { channel with queue := channel.queue ++ [event] } rest
      delivering := by
  have on : delivering = true := h.delivers listens
  have whole : (delivered ++ [event]) ++ rest = told := by
    rw [← h.whole on, oldest, List.append_assoc, List.singleton_append]
  exact {
    whole := fun _ => whole
    ordered := ⟨rest, whole⟩
    queued := fun _ => by rw [← List.append_assoc, h.queued listens]
    inTurn := h.inTurn.trans (List.prefix_append delivered [event])
    dropped := fun deaf => by rw [show channel.listening = false from deaf] at listens; cases listens
    noticed := fun off => by rw [on] at off; cases off }

theorem take {event : Event} {rest : List Event}
    (h : Delivery told delivered taken channel backlog delivering) (oldest : channel.queue = event :: rest) :
    Delivery told delivered (taken ++ [event]) { channel with queue := rest } backlog delivering := by
  have listens : channel.listening = true := by
    cases listens : channel.listening with
    | true => rfl
    | false => rw [h.dropped listens] at oldest; cases oldest
  have queued : (taken ++ [event]) ++ rest = delivered := by
    rw [← h.queued listens, oldest, List.append_assoc, List.singleton_append]
  exact {
    whole := h.whole
    ordered := h.ordered
    queued := fun _ => queued
    inTurn := ⟨rest, queued⟩
    dropped := fun deaf => by rw [show channel.listening = false from deaf] at listens; cases listens
    noticed := h.noticed }

theorem drop (h : Delivery told delivered taken channel backlog delivering) :
    Delivery told delivered taken channel.drop backlog delivering where
  whole := h.whole
  ordered := h.ordered
  queued listens := by cases listens
  inTurn := h.inTurn
  dropped _ := rfl
  noticed off := ⟨rfl, (h.noticed off).2⟩

theorem stop (h : Delivery told delivered taken channel backlog delivering)
    (deaf : channel.listening = false) : Delivery told delivered taken channel [] false where
  whole on := by cases on
  ordered := h.ordered
  queued := h.queued
  inTurn := h.inTurn
  dropped := h.dropped
  noticed _ := ⟨deaf, rfl⟩

end Delivery

variable {told : List Event} {past : List Leg} {c : Connection}

/-- A deed that moves no event. -/
theorem Delivery.still {d : Deed} (untaken : c.takenBy d = []) (undelivered : c.deliveredBy d = [])
    {channel : Channel} {backlog : List Event} {delivering : Bool}
    (h : Delivery told (delivered past) (taken past) channel backlog delivering) :
    Delivery told (delivered (past ++ [⟨c, d⟩])) (taken (past ++ [⟨c, d⟩])) channel backlog delivering := by
  rw [delivered_snoc, taken_snoc, untaken, undelivered, List.append_nil, List.append_nil]
  exact h

/-- Moving the oldest event of the backlog delivers it, or finds that nobody listens. -/
theorem delivery_moveOldest {d : Deed} (moves : d = .pass ∨ d = .wake .room)
    (h : Delivery told (delivered past) (taken past) c.channel c.backlog c.delivering) :
    Delivery told (delivered (past ++ [⟨c, d⟩])) (taken (past ++ [⟨c, d⟩])) c.moveOldest.channel
      c.moveOldest.backlog c.moveOldest.delivering := by
  have untaken : c.takenBy d = [] := by rcases moves with rfl | rfl <;> rfl
  have moved : c.deliveredBy d = if c.channel.listening then c.backlog.head?.toList else [] := by
    rcases moves with rfl | rfl <;> rfl
  cases oldest : c.backlog with
  | nil =>
    have same : c.moveOldest = c := by simp only [moveOldest, oldest]
    rw [same]
    exact h.still untaken (by rw [moved, oldest]; split <;> rfl)
  | cons event rest =>
    rw [taken_snoc, delivered_snoc, untaken, List.append_nil, moved, oldest]
    cases listens : c.channel.listening with
    | true =>
      have same : c.moveOldest =
          { c with channel := { c.channel with queue := c.channel.queue ++ [event] }, backlog := rest } := by
        simp only [moveOldest, oldest, listens, if_true]
      rw [same]
      exact h.deliver oldest listens
    | false =>
      have same : c.moveOldest = c.stopDelivering := by
        simp only [moveOldest, oldest, listens, Bool.false_eq_true, if_false]
      rw [same, if_neg Bool.false_ne_true, List.append_nil]
      exact h.stop listens

theorem delivery_meet (o : Outside)
    (h : Delivery told (delivered past) (taken past) c.channel c.backlog c.delivering) :
    Delivery told (delivered (past ++ [⟨c, .outside o⟩])) (taken (past ++ [⟨c, .outside o⟩]))
      (c.meet o).channel (c.meet o).backlog (c.meet o).delivering := by
  cases o with
  | takeEvent =>
    cases oldest : c.channel.queue with
    | nil =>
      have same : c.meet .takeEvent = c := by simp only [meet, Channel.take?, oldest]; rfl
      rw [same]
      exact h.still (by simp [takenBy, oldest]) rfl
    | cons event rest =>
      have same : c.meet .takeEvent = { c with channel := { c.channel with queue := rest } } := by
        simp only [meet, Channel.take?, oldest]; rfl
      have took : c.takenBy (.outside .takeEvent) = [event] := by rw [takenBy, oldest]; rfl
      have unmoved : c.deliveredBy (.outside .takeEvent) = [] := rfl
      rw [same, taken_snoc, delivered_snoc, took, unmoved, List.append_nil]
      exact h.take oldest
  | dropEvents => exact h.drop.still rfl rfl
  | clientSends bytes => rw [meet_clientSends]; exact h.still rfl rfl
  | request action => rw [meet_request]; exact h.still rfl rfl
  | requestClose => rw [meet_requestClose]; exact h.still rfl rfl
  | _ => exact h.still rfl rfl

theorem delivery_aside (d : Deed)
    (h : Delivery told (delivered past) (taken past) c.channel c.backlog c.delivering) :
    Delivery told (delivered (past ++ [⟨c, d⟩])) (taken (past ++ [⟨c, d⟩])) (c.aside d).channel
      (c.aside d).backlog (c.aside d).delivering := by
  cases d with
  | outside o => exact delivery_meet o h
  | wake w =>
    cases w with
    | room => exact delivery_moveOldest (.inr rfl) h
    | _ => exact h.still rfl rfl
  | write => exact h.still rfl rfl
  | pass => exact delivery_moveOldest (.inl rfl) h
  | rest => rw [aside, windUp_eq]; exact h.still rfl rfl

namespace Course

variable {setup : ConnectionSetup} {past : List Leg} {stage : Stage} {c : Connection}

theorem events_snoc (h : Course setup past stage c) (d : Deed) :
    ((Endpoint.start setup.policy 0).run (inputs (past ++ [⟨c, d⟩]))).events.toList =
      ((Endpoint.start setup.policy 0).run (inputs past)).events.toList ++
        (c.endpoint.run (c.stamped (c.inputsOf d))).events.toList := by
  rw [inputs_snoc, Endpoint.run_append, h.endpoint]
  exact Array.toList_append

/-- **Events are delivered and taken in order, and none is lost.** -/
theorem delivery (h : Course setup past stage c) :
    Delivery ((Endpoint.start setup.policy 0).run (inputs past)).events.toList (delivered past) (taken past)
      c.channel c.backlog c.delivering := by
  induction h with
  | start => exact ⟨fun _ => rfl, List.prefix_rfl, fun _ => rfl, List.prefix_rfl, fun _ => rfl, nofun⟩
  | @next past _ _ c d before allowed ih =>
    rw [before.events_snoc, perform_eq]
    exact (delivery_aside d ih).tell _

end Course

/-! ## The end of a connection -/

/-- What holds of a connection that has nothing more to do. -/
structure Spent (stage : Stage) (c : Connection) : Prop where
  resting : stage = .resting
  gone : c.endpoint.isClosed = true
  empty : c.backlog = []

theorem perform_finished {c : Connection} {d : Deed} (other : d ≠ .rest) :
    (c.perform d).finished = c.finished := by
  rw [perform_eq]
  change (c.aside d).finished = c.finished
  cases d with
  | outside o => rw [aside, meet_eq]
  | wake w =>
    cases w with
    | room => rw [aside, moveOldest_eq]
    | _ => rfl
  | write => rfl
  | pass => rw [aside, moveOldest_eq]
  | rest => exact absurd rfl other

theorem windUp_finished {c : Connection} (running : c.finished = false) (done : c.windUp.finished = true) :
    c.endpoint.isClosed = true ∧ c.backlog = [] := by
  simp only [windUp] at done
  split at done
  · rename_i gone
    split at done
    · rename_i empty
      exact ⟨gone, List.isEmpty_iff.1 empty⟩
    · rw [running] at done; cases done
  · rw [running] at done; cases done

theorem perform_delivering {c : Connection} (d : Deed) (off : c.delivering = false) :
    (c.perform d).delivering = false := by
  have moved : c.moveOldest.delivering = false := by
    unfold moveOldest stopDelivering
    split
    · exact off
    · split
      · exact off
      · rfl
  rw [perform_eq]
  change (c.aside d).delivering = false
  cases d with
  | outside o => rw [aside, meet_eq]; exact off
  | wake w =>
    cases w with
    | room => exact moved
    | _ => exact off
  | write => exact off
  | pass => exact moved
  | rest => rw [aside, windUp_eq]; exact off

/-- Nothing can wake it any more. -/
theorem Spent.outside {stage stage' : Stage} {c : Connection} {d : Deed} (h : Spent stage c)
    (done : c.finished = true) (allowed : Allowed c stage d stage') :
    stage' = .resting ∧ ∃ o, d = .outside o := by
  have resting := h.resting
  cases allowed with
  | outside _ o => exact ⟨resting, o, rfl⟩
  | wake able => simp [canWake, done] at able
  | write | pass _ | rest _ => cases resting

namespace Course

variable {setup : ConnectionSetup} {past : List Leg} {stage : Stage} {c : Connection}

theorem spent (h : Course setup past stage c) (done : c.finished = true) : Spent stage c := by
  induction h with
  | start => cases done
  | @next past _ _ c d before allowed ih =>
    cases already : c.finished with
    | true =>
      obtain ⟨resting, o, rfl⟩ := (ih already).outside already allowed
      refine ⟨resting, ?_, ?_⟩ <;> rw [perform, meet_eq]
      · exact (ih already).gone
      · exact (ih already).empty
    | false =>
      by_cases rests : d = .rest
      · subst rests
        obtain ⟨gone, empty⟩ := windUp_finished already done
        cases allowed with
        | rest _ => refine ⟨rfl, ?_, ?_⟩ <;> rw [perform, windUp_eq] <;> assumption
      · rw [perform_finished rests, already] at done
        cases done

/-- The channel is closed for good: whatever still happens comes from outside. -/
theorem after_end (h : Course setup past stage c) :
    ∀ m ∈ past, m.before.finished = true → (∃ o, m.deed = .outside o) ∧ m.after.finished = true := by
  induction h with
  | start => exact List.forall_mem_nil _
  | @next past _ _ c d before allowed ih =>
    intro m hm done
    rcases List.mem_append.1 hm with hm | hm
    · exact ih m hm done
    · cases List.mem_singleton.1 hm
      obtain ⟨-, o, rfl⟩ := (before.spent done).outside done allowed
      exact ⟨⟨o, rfl⟩, (perform_finished (by simp)).trans done⟩

/-- Once the application is found to have dropped its end, nothing is kept for it any more. -/
theorem undelivering (h : Course setup past stage c) :
    ∀ m ∈ past, m.before.delivering = false → c.delivering = false := by
  induction h with
  | start => exact List.forall_mem_nil _
  | @next past _ _ c d before allowed ih =>
    intro m hm off
    rcases List.mem_append.1 hm with hm | hm
    · exact perform_delivering d (ih m hm off)
    · cases List.mem_singleton.1 hm
      exact perform_delivering d off

end Course

/-- **No event is lost, told twice or out of turn.** Whatever happens, in whatever order, and at any point
of a turn: as long as the application listens, what it has taken, what is in the channel and what is in the
backlog are what the endpoint has told, in order. Even if it has stopped listening, what has gone to the
channel is where that begins, and what it has taken is where this begins; and from the moment this is found
out the backlog is empty. When nothing more is to be done, the last event, and no other, is the one that
tells the end; an application that listens has taken every event or finds it in the channel; and whatever
still happens comes from outside and adds nothing to the channel. -/
theorem events_delivered {setup : ConnectionSetup} {past : List Leg} {stage : Stage} {c : Connection}
    (h : Course setup past stage c) :
    let events := ((Endpoint.start setup.policy 0).run (inputs past)).events.toList
    (c.channel.listening = true → taken past ++ c.channel.queue ++ c.backlog = events) ∧
    (taken past <+: delivered past ∧ delivered past <+: events) ∧
    (c.delivering = false → c.channel.listening = false ∧ c.backlog = []) ∧
    (∀ m ∈ past, m.before.delivering = false → c.delivering = false) ∧
    (c.finished = true →
      (c.channel.listening = true → taken past ++ c.channel.queue = events) ∧
      ∃ front reason will, events = front ++ [.closed reason will] ∧ ∀ event ∈ front, event.isEnd = false) ∧
    ∀ m ∈ past, m.before.finished = true →
      (∃ o, m.deed = .outside o) ∧ m.before.deliveredBy m.deed = [] ∧ m.after.finished = true := by
  intro events
  have spread : Delivery events (delivered past) (taken past) c.channel c.backlog c.delivering := h.delivery
  have all (listens : c.channel.listening = true) : taken past ++ c.channel.queue ++ c.backlog = events := by
    rw [spread.queued listens, spread.whole (spread.delivers listens)]
  refine ⟨all, ⟨spread.inTurn, spread.ordered⟩, spread.noticed, h.undelivering, fun done => ⟨?_, ?_⟩, ?_⟩
  · intro listens
    rw [← all listens, (h.spent done).empty, List.append_nil]
  · have gone : c.endpoint.isClosed = true := (h.spent done).gone
    rw [h.endpoint] at gone
    obtain ⟨front, reason, will, last, others⟩ :=
      (Endpoint.course_chapter (Endpoint.course_moments _ (inputs past))).last gone
    exact ⟨front, reason, will, (Endpoint.moments_events _ _).trans last, others⟩
  · intro m hm done
    obtain ⟨⟨o, fromOutside⟩, stays⟩ := h.after_end m hm done
    exact ⟨⟨o, fromOutside⟩, by rw [fromOutside]; rfl, stays⟩

/-- The client pings, and says DISCONNECT; the application takes the ping. -/
def departed : Connection :=
  along narrow (admitted ++ [.clientSends [0xC0, 0x00], .clientSends [0xE0, 0x00], .takeEvent])

theorem departed_delivered :
    ∃ past, Course narrow past .resting departed ∧ departed.finished = true ∧
      taken past ++ [.closed .graceful none] =
        ((Endpoint.start narrow.policy 0).run (inputs past)).events.toList := by
  obtain ⟨past, h⟩ : Reached narrow departed := along_reached _ _
  have done : departed.finished = true := by decide +kernel
  have listens : departed.channel.listening = true := by decide +kernel
  have last : departed.channel.queue = [.closed .graceful none] := by decide +kernel
  refine ⟨past, h, done, ?_⟩
  rw [← last]
  exact ((events_delivered h).2.2.2.2.1 done).1 listens

end Connection
end MqttLink
