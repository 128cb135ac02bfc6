import MqttLink.Proofs.Connection.WorkOff
/-!
# The course of a connection

A turn is not one step. While a connection deals with what woke it, writes, and passes its events on one
by one, the client, the application and the clock go on, and each of them may do something between any two
of these. A `Course` is a past made of such deeds, in any order in which they can come. `turn`, `settle`
and `launch` only choose one of these orders (`Reached`).
-/

namespace MqttLink.Connection

open Wire

/-! ## Deeds -/

/-- What comes from outside. -/
inductive Outside where
  | clientSends (bytes : Bytes)
  | clientCollects
  | clientEnds
  | clientLeaves
  | elapse (span : Nat)
  | signalShutdown
  | request (action : Action)
  | requestClose
  | dropHandle
  | takeEvent
  | dropEvents

/-- What comes of it. Without a handle nothing can be asked for. -/
def meet (c : Connection) : Outside → Connection
  | .clientSends bytes => (c.clientSends bytes).getD c
  | .clientCollects => { c with pipe := c.pipe.collect.2 }
  | .clientEnds => c.clientEnds
  | .clientLeaves => c.clientLeaves
  | .elapse span => c.elapse span
  | .signalShutdown => c.signalShutdown
  | .request action => if c.desk.handled then (c.request action).2 else c
  | .requestClose => if c.desk.handled then c.requestClose else c
  | .dropHandle => c.dropHandle
  | .takeEvent => { c with channel := (c.channel.take?.map Prod.snd).getD c.channel }
  | .dropEvents => c.dropEvents

/-- How far a turn has come. -/
inductive Stage where
  /-- The connection waits to be woken. -/
  | resting
  /-- It has dealt with what woke it. -/
  | reacted
  /-- It has written, and passes events on. -/
  | written

/-- The pieces of a turn, and what can come between them. -/
inductive Deed where
  | outside (o : Outside)
  | wake (w : Wake)
  | write
  /-- The oldest event of the backlog is passed on. -/
  | pass
  | rest

def perform (c : Connection) : Deed → Connection
  | .outside o => c.meet o
  | .wake w => c.react w
  | .write => c.writeOut
  | .pass => c.moveOldest
  | .rest => c.windUp

/-- Whether the oldest event of the backlog can leave it. -/
def canPass (c : Connection) : Bool :=
  !c.backlog.isEmpty && (!c.channel.listening || 0 < c.channel.room)

/-- Which deed can come when, and how far the turn is then. -/
inductive Allowed (c : Connection) : Stage → Deed → Stage → Prop where
  | outside (stage : Stage) (o : Outside) : Allowed c stage (.outside o) stage
  | wake {w : Wake} (able : c.canWake w = true) : Allowed c .resting (.wake w) .reacted
  | write : Allowed c .reacted .write .written
  | pass (free : c.canPass = true) : Allowed c .written .pass .written
  | rest (stuck : c.canPass = false) : Allowed c .written .rest .resting

/-- A deed and the connection that it meets. -/
structure Leg where
  before : Connection
  deed : Deed

def Leg.after (m : Leg) : Connection := m.before.perform m.deed

/-- A past, deed by deed, that has led to this connection and so far in its turn. It begins with the flush
that a new connection starts with. -/
inductive Course (setup : ConnectionSetup) : List Leg → Stage → Connection → Prop where
  | start : Course setup [] .reacted (start setup)
  | next {past : List Leg} {stage stage' : Stage} {c : Connection} (d : Deed)
    (before : Course setup past stage c) (allowed : Allowed c stage d stage') :
    Course setup (past ++ [⟨c, d⟩]) stage' (c.perform d)

/-- Wherever a past is cut, the connection was on its course there. -/
theorem Course.cut {setup : ConnectionSetup} {earlier later : List Leg} {m : Leg} {stage : Stage}
    {c : Connection} (h : Course setup (earlier ++ m :: later) stage c) :
    ∃ stage stage', Course setup earlier stage m.before ∧ Allowed m.before stage m.deed stage' := by
  generalize whole : earlier ++ m :: later = past at h
  induction h generalizing later with
  | start => simp at whole
  | @next past stage stage' c d before allowed ih =>
    rcases List.eq_nil_or_concat later with rfl | ⟨later, last, rfl⟩
    · obtain ⟨rfl, same⟩ := List.append_inj' whole rfl
      cases same
      exact ⟨stage, stage', before, allowed⟩
    · rw [List.concat_eq_append, ← List.cons_append, ← List.append_assoc] at whole
      exact ih (List.append_inj' whole rfl).1

/-! ## Whole turns -/

theorem deliver_stuck {c : Connection} (stuck : c.canPass = false) : c.deliver = c := by
  unfold deliver
  split
  · rfl
  · rename_i waiting
    obtain ⟨listens, full⟩ : c.channel.listening = true ∧ c.channel.room = 0 := by
      simpa [canPass, waiting] using stuck
    rw [if_neg (by simp [listens])]
    simp [full]

theorem deliver_pass {c : Connection} (free : c.canPass = true) : c.moveOldest.deliver = c.deliver := by
  cases h : c.backlog with
  | nil => simp [canPass, h] at free
  | cons event rest =>
    cases listens : c.channel.listening with
    | false => simp [moveOldest, deliver, stopDelivering, h, listens]
    | true =>
      obtain ⟨room, more⟩ : ∃ room, c.channel.capacity - c.channel.queue.length = room + 1 := by
        have free : 0 < c.channel.room := by simpa [canPass, h, listens] using free
        exact Nat.exists_eq_succ_of_ne_zero (Nat.ne_of_gt free)
      have less : c.channel.capacity - (c.channel.queue.length + 1) = room := by omega
      cases rest <;> simp [moveOldest, deliver, Channel.room, h, listens, more, less]

theorem length_moveOldest (c : Connection) : c.moveOldest.backlog.length ≤ c.backlog.length - 1 := by
  unfold moveOldest
  split
  · rename_i none
    simp [none]
  · rename_i event rest waiting
    split <;> simp [stopDelivering, waiting]

/-- Passing on all there is room for is passing on one event after the other. -/
theorem Course.deliver {setup : ConnectionSetup} {past : List Leg} {c : Connection}
    (h : Course setup past .written c) :
    ∃ more, Course setup (past ++ more) .resting c.deliver.windUp := by
  cases free : c.canPass with
  | false =>
    refine ⟨[⟨c, .rest⟩], ?_⟩
    rw [deliver_stuck free]
    exact h.next .rest (.rest free)
  | true =>
    have shorter : c.moveOldest.backlog.length < c.backlog.length := by
      have waiting : 0 < c.backlog.length := by
        cases h : c.backlog with
        | nil => simp [canPass, h] at free
        | cons event rest => exact Nat.succ_pos _
      have := c.length_moveOldest
      omega
    obtain ⟨more, h'⟩ := (h.next .pass (.pass free)).deliver
    rw [List.append_assoc] at h'
    rw [← deliver_pass free]
    exact ⟨_, h'⟩
termination_by c.backlog.length

theorem Course.flush {setup : ConnectionSetup} {past : List Leg} {c : Connection}
    (h : Course setup past .reacted c) : ∃ more, Course setup (past ++ more) .resting c.flush := by
  obtain ⟨more, h'⟩ := (h.next .write .write).deliver
  rw [List.append_assoc] at h'
  exact ⟨_, h'⟩

/-- The connections that can be found between turns. -/
def Reached (setup : ConnectionSetup) (c : Connection) : Prop := ∃ past, Course setup past .resting c

namespace Reached

variable {setup : ConnectionSetup} {c : Connection}

theorem outside (h : Reached setup c) (o : Outside) : Reached setup (c.meet o) := by
  obtain ⟨past, h⟩ := h
  exact ⟨_, h.next (.outside o) (.outside .resting o)⟩

theorem turn {w : Wake} (h : Reached setup c) (able : c.canWake w = true) : Reached setup (c.turn w) := by
  obtain ⟨past, h⟩ := h
  obtain ⟨more, h'⟩ := (h.next (.wake w) (.wake able)).flush
  exact ⟨_, h'⟩

theorem turns (n : Nat) (h : Reached setup c) : Reached setup (Connection.turns n c) := by
  induction n generalizing c with
  | zero => exact h
  | succ n ih =>
    rw [Connection.turns]
    split
    · exact h
    · rename_i w first
      exact ih (h.turn (List.find?_some first))

theorem settle (h : Reached setup c) : Reached setup c.settle := h.turns _

end Reached

theorem launch_reached (setup : ConnectionSetup) : Reached setup (launch setup) := by
  obtain ⟨more, h⟩ := Course.flush (.start : Course setup [] .reacted (start setup))
  exact Reached.settle ⟨_, h⟩

/-- What becomes of a connection to which these things happen, each after it has settled. -/
def along (setup : ConnectionSetup) (happens : List Outside) : Connection :=
  happens.foldl (fun c o => (c.meet o).settle) (launch setup)

theorem along_reached (setup : ConnectionSetup) (happens : List Outside) :
    Reached setup (along setup happens) := by
  refine List.foldlRecOn happens _ (launch_reached setup) ?_
  intro c h o _
  exact (h.outside o).settle

/-- If there is nothing to do next, nothing can wake the connection. -/
theorem asleep {c : Connection} (idle : c.nextWake? = none) (w : Wake) : c.canWake w = false := by
  have never := List.find?_eq_none.1 idle
  cases w with
  | bytes count =>
    cases able : c.canWake (.bytes count) with
    | false => rfl
    | true =>
      refine absurd ?_ (never (.bytes c.pipe.inbox.length) List.mem_cons_self)
      simp only [canWake, Bool.and_eq_true, decide_eq_true_eq] at able ⊢
      obtain ⟨running, ⟨reads, some⟩, inside⟩ := able
      exact ⟨running, ⟨reads, Nat.lt_of_lt_of_le some inside⟩, Nat.le_refl _⟩
  | _ => simpa using never _ (by simp)

end MqttLink.Connection
