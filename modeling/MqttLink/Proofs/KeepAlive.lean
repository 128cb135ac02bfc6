import MqttLink.KeepAlive
/-!
# Silence is reported once

A watch is touched and asked at any times, in any order; the clock may go back. Until it has reported a
silence, it goes by the last touch alone (`run_watching`), and so does its answer (`poll_iff`). Once it has, it
is `Latched`: nothing that is asked of it changes it any more.
-/

namespace MqttLink.KeepAlive.Watch

/-! ## One call -/

section

variable {w : Watch}

/-- A watch that has nothing to report stays as it is. -/
theorem poll_early {now : Instant} (early : (w.poll now).1 = false) : (w.poll now).2 = w := by
  unfold poll at early ⊢
  cases h : w.deadline with
  | none => rfl
  | some due =>
    simp only [h] at early ⊢
    by_cases late : due ≤ now
    · simp [late] at early
    · simp only [late, if_false]

/-- The report itself changes nothing but that there is none to come. -/
theorem poll_late {now : Instant} (late : (w.poll now).1 = true) : (w.poll now).2 = { w with expired := true } := by
  unfold poll at late ⊢
  cases h : w.deadline with
  | none => simp only [h, Bool.false_eq_true] at late
  | some due =>
    simp only [h] at late ⊢
    by_cases passed : due ≤ now
    · simp only [passed, if_true]
    · simp [passed] at late

theorem deadline_running (interval : UInt16) (heard : Instant) :
    deadline ⟨interval, heard, false⟩ = if interval = 0 then none else some (heard + 1500 * interval.toNat) := by
  simp only [deadline, allowance, Bool.false_eq_true, if_false]
  split
  · rfl
  · rw [Nat.mul_comm]; rfl

/-- A running watch reports a silence of one and a half intervals, unless it has no interval to go by. -/
theorem poll_iff {interval : UInt16} {heard now : Instant} :
    (poll ⟨interval, heard, false⟩ now).1 = true ↔ interval ≠ 0 ∧ heard + 1500 * interval.toNat ≤ now := by
  unfold poll
  rw [deadline_running]
  by_cases unwatched : interval = 0
  · simp [unwatched]
  · by_cases late : heard + 1500 * interval.toNat ≤ now <;> simp [unwatched, late]

/-- A watch that has made its report, and that nothing changes any more. -/
structure Latched (w : Watch) (heard : Instant) : Prop where
  lastActivity : w.lastActivity = heard
  deadline : w.deadline = none
  touch : ∀ now, w.touch now = w
  poll : ∀ now, w.poll now = (false, w)

theorem latched (expired : w.expired = true) : Latched w w.lastActivity := by
  have undue : w.deadline = none := if_pos expired
  exact ⟨rfl, undue, fun _ => if_pos expired, fun _ => by simp only [Watch.poll, undue]⟩

end

/-! ## Calls in any order -/

/-- What a watch is used for. -/
inductive Call where
  /-- The client has been heard of. -/
  | touch (now : Instant)
  /-- Has the client been silent for too long? -/
  | poll (now : Instant)
deriving DecidableEq, Repr

/-- The answer to a question, and the watch after a call. -/
def call (w : Watch) : Call → Option Bool × Watch
  | .touch now => (none, w.touch now)
  | .poll now => ((w.poll now).1, (w.poll now).2)

/-- What is answered to one call after the other, and the watch after them. -/
def run (w : Watch) : List Call → List (Option Bool) × Watch
  | [] => ([], w)
  | c :: calls => ((w.call c).1 :: ((w.call c).2.run calls).1, ((w.call c).2.run calls).2)

/-- When the client was heard of, if it was. -/
def Call.heard? : Call → Option Instant
  | touch now => some now
  | poll _ => none

/-- When the client was heard of last; `opened` if it was not. -/
def lastHeard (opened : Instant) (calls : List Call) : Instant := (calls.filterMap Call.heard?).getLastD opened

/-- Whether a silence is reported among some answers. -/
def Reports (answers : List (Option Bool)) : Prop := some true ∈ answers

theorem run_append (w : Watch) (calls more : List Call) :
    w.run (calls ++ more) =
      ((w.run calls).1 ++ ((w.run calls).2.run more).1, ((w.run calls).2.run more).2) := by
  induction calls generalizing w with
  | nil => rfl
  | cons c calls ih => simp only [List.cons_append, run, ih]

/-- Nothing is reported by a watch that has made its report. -/
theorem run_latched {w : Watch} (expired : w.expired = true) (calls : List Call) :
    ¬ Reports (w.run calls).1 ∧ (w.run calls).2 = w := by
  have stays := latched expired
  induction calls with
  | nil => exact ⟨List.not_mem_nil, rfl⟩
  | cons c calls ih =>
    have same : (w.call c).1 ≠ some true ∧ (w.call c).2 = w := by
      cases c with
      | touch now => exact ⟨nofun, stays.touch now⟩
      | poll now => simp [call, stays.poll now]
    simp only [run, same.2, Reports, List.mem_cons, not_or]
    exact ⟨⟨same.1.symm, ih.1⟩, ih.2⟩

/-- A call that is answered without a report leaves the watch running, and at most moves the last sign of
life. -/
theorem call_watching {interval : UInt16} {heard : Instant} {c : Call}
    (unreported : (call ⟨interval, heard, false⟩ c).1 ≠ some true) :
    (call ⟨interval, heard, false⟩ c).2 = ⟨interval, lastHeard heard [c], false⟩ := by
  cases c with
  | touch now => rfl
  | poll now =>
    have early : (poll ⟨interval, heard, false⟩ now).1 = false := by simpa [call] using unreported
    exact poll_early early

theorem lastHeard_cons (opened : Instant) (c : Call) (calls : List Call) :
    lastHeard opened (c :: calls) = lastHeard (lastHeard opened [c]) calls := by
  cases c with
  | poll now => rfl
  | touch now => exact List.getLastD_cons

/-- **As long as nothing is reported, the watch goes by the last touch alone.** -/
theorem run_watching {interval : UInt16} {heard : Instant} {calls : List Call}
    (unreported : ¬ Reports (run ⟨interval, heard, false⟩ calls).1) :
    (run ⟨interval, heard, false⟩ calls).2 = ⟨interval, lastHeard heard calls, false⟩ := by
  induction calls generalizing heard with
  | nil => rfl
  | cons c calls ih =>
    simp only [run, Reports, List.mem_cons, not_or] at unreported ⊢
    have next := call_watching (Ne.symm unreported.1)
    rw [next] at unreported ⊢
    rw [ih unreported.2, ← lastHeard_cons]

/-- Without an interval nothing is ever reported. -/
theorem run_unwatched (heard : Instant) (calls : List Call) : ¬ Reports (run ⟨0, heard, false⟩ calls).1 := by
  induction calls generalizing heard with
  | nil => exact List.not_mem_nil
  | cons c calls ih =>
    have unreported : (call ⟨0, heard, false⟩ c).1 ≠ some true := by
      cases c with
      | touch now => exact nofun
      | poll now => exact fun reported => (poll_iff.1 (Option.some.inj reported)).1 rfl
    simp only [run, Reports, List.mem_cons, not_or]
    rw [call_watching unreported]
    exact ⟨unreported.symm, ih _⟩

/-- The call that is answered with a report leaves the watch as it was, but for the report. -/
theorem call_reported {w : Watch} {c : Call} (reported : (w.call c).1 = some true) :
    (w.call c).2 = { w with expired := true } := by
  cases c with
  | touch now => cases reported
  | poll now => exact poll_late (Option.some.inj reported)

theorem count_reports (w : Watch) (calls : List Call) : (w.run calls).1.count (some true) ≤ 1 := by
  induction calls generalizing w with
  | nil => exact Nat.zero_le 1
  | cons c calls ih =>
    rw [run]
    by_cases reported : (w.call c).1 = some true
    · -- No other report follows this one.
      have silent : ¬ Reports ((w.call c).2.run calls).1 :=
        (run_latched (by rw [call_reported reported]) calls).1
      exact Nat.le_of_eq (by rw [reported, List.count_cons_self, List.count_eq_zero_of_not_mem silent])
    · rw [List.count_cons_of_ne reported]
      exact ih _

/-- **A silence is reported exactly once.** However a watch is touched and asked, at most one question is
answered with a report, and none without an interval. As long as there was no report, a question is answered
with one exactly if one and a half intervals have passed since the last touch, or since the start if there was
none. After a report the watch stays as it is: it keeps the time of that touch, has no deadline, takes no notice
of touches, and answers no question with a report. -/
theorem run_reports (interval : UInt16) (opened : Instant) :
    (∀ calls, ((start interval opened).run calls).1.count (some true) ≤ 1 ∧
      (interval = 0 → ¬ Reports ((start interval opened).run calls).1)) ∧
    ∀ earlier now, ¬ Reports ((start interval opened).run earlier).1 →
      let asked := ((start interval opened).run earlier).2
      ((asked.poll now).1 = true ↔
        interval ≠ 0 ∧ lastHeard opened earlier + 1500 * interval.toNat ≤ now) ∧
      ((asked.poll now).1 = true → ∀ later,
        Latched ((start interval opened).run (earlier ++ .poll now :: later)).2 (lastHeard opened earlier)) := by
  refine ⟨fun calls => ⟨count_reports _ _, fun unwatched => ?_⟩, fun earlier now unreported => ?_⟩
  · subst unwatched
    exact run_unwatched opened calls
  · have watching := run_watching unreported
    rw [start, watching]
    refine ⟨poll_iff, fun reported later => ?_⟩
    have silenced : (call ⟨interval, lastHeard opened earlier, false⟩ (.poll now)).2 =
        ⟨interval, lastHeard opened earlier, true⟩ := poll_late reported
    have whole : (run ⟨interval, opened, false⟩ (earlier ++ .poll now :: later)).2 =
        ⟨interval, lastHeard opened earlier, true⟩ := by
      rw [run_append, watching, run, silenced]
      exact (run_latched rfl later).2
    rw [whole]
    exact latched rfl

end MqttLink.KeepAlive.Watch
