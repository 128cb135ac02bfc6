import MqttLink.Proofs.Connection.Delivery
import MqttLink.Proofs.Connection.Carriage
/-!
# Calls and their answers

A call is made when it enters the queue, through whichever handle; one that is made when there is nobody left
to serve it never enters. From the queue calls are taken one by one, oldest first. `Books` ties what has been
asked, called, served and replied to what there is at the desk, before and after the connection has finished,
and `Course.books` says that it holds all along.
-/

namespace MqttLink

/-- The requests among calls, each under its ticket. -/
def requestsIn (calls : List Call) : List (Nat × Action) :=
  calls.filterMap fun
    | .request ticket action => some (ticket, action)
    | .close => none

/-- The requests among inputs. -/
def actionsIn (inputs : List Input) : List Action :=
  inputs.filterMap fun
    | .action a => some a
    | _ => none

theorem mem_requestsIn {ticket : Nat} {a : Action} {calls : List Call} :
    (ticket, a) ∈ requestsIn calls ↔ .request ticket a ∈ calls := by
  rw [requestsIn, List.mem_filterMap]
  constructor
  · rintro ⟨call, called, same⟩
    cases call <;> cases same
    exact called
  · intro called
    exact ⟨.request ticket a, called, rfl⟩

theorem requestsIn_append (calls more : List Call) :
    requestsIn (calls ++ more) = requestsIn calls ++ requestsIn more := List.filterMap_append

theorem actionsIn_append (inputs more : List Input) :
    actionsIn (inputs ++ more) = actionsIn inputs ++ actionsIn more := List.filterMap_append

/-- What a call puts to the endpoint is a request if the call is one. -/
theorem actionsIn_calls (calls : List Call) :
    actionsIn (calls.map Call.input) = (requestsIn calls).map Prod.snd := by
  rw [actionsIn, requestsIn, List.filterMap_map, List.map_filterMap]
  congr 1
  funext call
  cases call <;> rfl

/-- What is told under the ticket of a request that nobody will serve. -/
def Desk.regret (request : Nat × Action) : Nat × Answer := (request.1, .error .closed)

theorem Desk.shutDown_answers (d : Desk) :
    d.shutDown.answers.reverse = d.answers.reverse ++ (requestsIn d.waiting).map Desk.regret := by
  rw [Desk.shutDown]
  simp only [List.foldl_flip_cons_eq_append, List.reverse_append, List.reverse_reverse, requestsIn,
    List.map_filterMap]
  congr 2
  funext call
  cases call <;> rfl

namespace Connection

/-! ## Deed by deed -/

/-- The calls that enter the queue with a deed. -/
def callsBy (c : Connection) : Deed → List Call
  | .outside (.request a) => if c.desk.handled && !c.finished then [.request c.desk.nextTicket a] else []
  | .outside .requestClose => if c.desk.handled && !c.finished then [.close] else []
  | _ => []

/-- The requests that are made with a deed, whether they enter the queue or not. -/
def asksBy (c : Connection) : Deed → List (Nat × Action)
  | .outside (.request a) => if c.desk.handled then [(c.desk.nextTicket, a)] else []
  | _ => []

/-- The call that is served with a deed. -/
def servesBy (c : Connection) : Deed → List Call
  | .wake .call => c.desk.waiting.head?.toList
  | _ => []

/-- What the endpoint answers to a request that it meets. -/
def reply (c : Connection) (request : Nat × Action) : Nat × Answer :=
  (request.1, (c.endpoint.act c.now request.2).1)

/-- What is replied with a deed. -/
def repliesBy (c : Connection) (d : Deed) : List (Nat × Answer) := (requestsIn (c.servesBy d)).map c.reply

/-- **What is served is put to the endpoint**, and no other request is. -/
theorem inputsOf_actions (c : Connection) (d : Deed) :
    actionsIn (c.inputsOf d) = (requestsIn (c.servesBy d)).map Prod.snd := by
  have found (c : Connection) : actionsIn c.offers = [] := by
    rw [actionsIn, List.filterMap_eq_nil_iff]
    intro input offered
    cases input with
    | action a => exact absurd offered offers_action
    | _ => rfl
  have plain {inputs : List Input} (plain : ∀ input ∈ inputs, input.IsPlain) : actionsIn inputs = [] := by
    rw [actionsIn, List.filterMap_eq_nil_iff]
    intro input put
    obtain rfl | rfl | rfl := plain input put <;> rfl
  cases looks : d.looks with
  | false =>
    have nothing : c.servesBy d = [] := by
      cases d with
      | wake w =>
        cases w with
        | call => cases looks
        | _ => rfl
      | _ => rfl
    rw [nothing, plain fun input put => blind_inputs c looks put]
    rfl
  | true =>
    cases d with
    | wake w =>
      cases w with
      | bytes | room => exact found _
      | call =>
        rw [inputsOf, actionsIn_append, found, List.append_nil, servesBy, ← actionsIn_calls]
        cases c.desk.waiting <;> rfl
      | _ => cases looks
    | _ => cases looks

/-- What the endpoint makes of a deed leaves the desk alone. -/
theorem perform_desk (c : Connection) (d : Deed) : (c.perform d).desk = (c.aside d).desk := by
  rw [perform_eq]
  rfl

/-! ## The books -/

/-- What has been asked, called, served and replied, and what there is at the desk. -/
inductive Books (asked : List (Nat × Action)) (called served : List Call) (replies : List (Nat × Answer)) :
    Desk → Bool → Prop where
  /-- As long as there is someone to serve them, calls that are not served wait, and requests that are have
  been replied to. -/
  | running {d : Desk} (whole : asked = requestsIn called) (inTurn : called = served ++ d.waiting)
    (answered : d.answers.reverse = replies) : Books asked called served replies d false
  /-- Then whatever is left is told so. -/
  | ended {d : Desk} (left : List (Nat × Action)) (whole : asked = requestsIn served ++ left)
    (inTurn : served <+: called) (empty : d.waiting = [])
    (answered : d.answers.reverse = replies ++ left.map Desk.regret) :
    Books asked called served replies d true

namespace Books

variable {asked : List (Nat × Action)} {called served : List Call} {replies : List (Nat × Answer)} {d : Desk}
  {finished : Bool}

theorem request (h : Books asked called served replies d finished) (a : Action) :
    Books (asked ++ [(d.nextTicket, a)]) (called ++ if finished then [] else [.request d.nextTicket a]) served
      replies (if finished then (d.request a).2.shutDown else (d.request a).2) finished := by
  cases h with
  | running whole inTurn answered =>
    refine .running ?_ ?_ answered
    · rw [if_neg nofun, requestsIn_append, whole]
      rfl
    · rw [if_neg nofun, inTurn, List.append_assoc]
      rfl
  | ended left whole inTurn empty answered =>
    refine .ended (left ++ [(d.nextTicket, a)]) ?_ ?_ rfl ?_
    · rw [whole, List.append_assoc]
    · rwa [if_pos rfl, List.append_nil]
    · rw [if_pos rfl, Desk.shutDown_answers]
      simp [Desk.request, empty, answered, requestsIn]

theorem requestClose (h : Books asked called served replies d finished) :
    Books asked (called ++ if finished then [] else [.close]) served replies
      (if finished then d else { d with waiting := d.waiting ++ [.close] }) finished := by
  cases h with
  | running whole inTurn answered =>
    refine .running ?_ ?_ answered
    · rw [if_neg nofun, requestsIn_append, whole]
      exact (List.append_nil _).symm
    · rw [if_neg nofun, inTurn, List.append_assoc]
      rfl
  | ended left whole inTurn empty answered =>
    rw [if_pos rfl, if_pos rfl, List.append_nil]
    exact .ended left whole inTurn empty answered

theorem shutDown (h : Books asked called served replies d finished) :
    Books asked called served replies d.shutDown true := by
  cases h with
  | running whole inTurn answered =>
    refine .ended (requestsIn d.waiting) ?_ ⟨d.waiting, inTurn.symm⟩ rfl ?_
    · rw [whole, inTurn, requestsIn_append]
    · rw [d.shutDown_answers, answered]
  | ended left whole inTurn empty answered =>
    refine .ended left whole inTurn rfl ?_
    rw [d.shutDown_answers, empty, answered]
    exact List.append_nil _

theorem serve {call : Call} {rest : List Call} {more : List (Nat × Answer)} {answers : List (Nat × Answer)}
    (h : Books asked called served replies d false) (oldest : d.waiting = call :: rest)
    (noted : answers.reverse = d.answers.reverse ++ more) :
    Books asked called (served ++ [call]) (replies ++ more) { d with waiting := rest, answers := answers }
      false := by
  cases h with
  | running whole inTurn answered =>
    refine .running whole ?_ ?_
    · rw [inTurn, oldest, List.append_assoc]
      rfl
    · rw [noted, answered]

theorem prefix_called (h : Books asked called served replies d finished) : served <+: called := by
  cases h with
  | running whole inTurn answered => exact ⟨d.waiting, inTurn.symm⟩
  | ended left whole inTurn empty answered => exact inTurn

/-- Of the desk only the queue and the answers are in the books. -/
theorem of_eq {d' : Desk} (h : Books asked called served replies d finished)
    (waiting : d'.waiting = d.waiting) (answers : d'.answers = d.answers) :
    Books asked called served replies d' finished := by
  cases h with
  | running whole inTurn answered => exact .running whole (waiting ▸ inTurn) (answers ▸ answered)
  | ended left whole inTurn empty answered =>
    exact .ended left whole inTurn (waiting.trans empty) (answers ▸ answered)

end Books

/-! ## Over a course -/

/-- The requests that have been made, under their tickets. -/
def asked (past : List Leg) : List (Nat × Action) := past.flatMap fun m => m.before.asksBy m.deed

/-- The calls that have entered the queue. -/
def called (past : List Leg) : List Call := past.flatMap fun m => m.before.callsBy m.deed

/-- The calls that have been taken out of it and served. -/
def served (past : List Leg) : List Call := past.flatMap fun m => m.before.servesBy m.deed

/-- What the endpoint has replied. -/
def replies (past : List Leg) : List (Nat × Answer) := past.flatMap fun m => m.before.repliesBy m.deed

section

variable {past : List Leg} {c : Connection}

/-- What is known of the desk after a past. -/
structure Kept (past : List Leg) (c : Connection) : Prop where
  /-- Tickets are given out in order, each once. -/
  numbered : (asked past).map Prod.fst = List.range c.desk.nextTicket
  books : Books (asked past) (called past) (served past) (replies past) c.desk c.finished

theorem kept_snoc {d : Deed}
    (numbered : (asked past ++ c.asksBy d).map Prod.fst = List.range (c.aside d).desk.nextTicket)
    (books : Books (asked past ++ c.asksBy d) (called past ++ c.callsBy d) (served past ++ c.servesBy d)
      (replies past ++ c.repliesBy d) (c.aside d).desk (c.perform d).finished) :
    Kept (past ++ [⟨c, d⟩]) (c.perform d) := by
  constructor <;> rw [perform_desk] <;>
    simpa only [asked, called, served, replies, List.flatMap_append, List.flatMap_singleton]

/-- A deed by which nobody calls and nobody is served. -/
theorem Kept.still {d : Deed} (h : Kept past c) (uncalled : c.asksBy d = [] ∧ c.callsBy d = [])
    (unserved : c.servesBy d = []) (running : (c.perform d).finished = c.finished)
    (same : ∃ handled, (c.aside d).desk = { c.desk with handled := handled }) :
    Kept (past ++ [⟨c, d⟩]) (c.perform d) := by
  obtain ⟨handled, same⟩ := same
  have nothing : c.repliesBy d = [] := by rw [repliesBy, unserved]; rfl
  refine kept_snoc ?_ ?_
  · rw [uncalled.1, List.append_nil, same, h.numbered]
  · rw [uncalled.1, uncalled.2, unserved, nothing, running, same]
    simp only [List.append_nil]
    exact h.books.of_eq rfl rfl

theorem Kept.request (h : Kept past c) (a : Action) :
    Kept (past ++ [⟨c, .outside (.request a)⟩]) (c.meet (.request a)) := by
  have running : (c.perform (.outside (.request a))).finished = c.finished := perform_finished nofun
  by_cases handled : c.desk.handled = true
  · have asks : c.asksBy (.outside (.request a)) = [(c.desk.nextTicket, a)] := by rw [asksBy, if_pos handled]
    have calls : c.callsBy (.outside (.request a)) =
        if c.finished then [] else [.request c.desk.nextTicket a] := by
      cases done : c.finished <;> simp [callsBy, handled, done]
    have desk : (c.aside (.outside (.request a))).desk =
        if c.finished then (c.desk.request a).2.shutDown else (c.desk.request a).2 := by
      rw [aside, meet, if_pos handled]
      rfl
    refine kept_snoc ?_ ?_
    · have next : (c.aside (.outside (.request a))).desk.nextTicket = c.desk.nextTicket + 1 := by
        rw [desk]
        split <;> rfl
      rw [asks, next, List.map_append, h.numbered]
      exact List.range_succ.symm
    · rw [asks, calls, desk, running]
      simpa only [servesBy, repliesBy, requestsIn, List.filterMap_nil, List.map_nil, List.append_nil]
        using h.books.request a
  · have desk : (c.aside (.outside (.request a))).desk = c.desk := by rw [aside, meet, if_neg handled]
    refine h.still ⟨?_, ?_⟩ rfl running ⟨c.desk.handled, desk⟩ <;> simp [asksBy, callsBy, handled]

theorem Kept.requestClose (h : Kept past c) :
    Kept (past ++ [⟨c, .outside .requestClose⟩]) (c.meet .requestClose) := by
  have running : (c.perform (.outside .requestClose)).finished = c.finished := perform_finished nofun
  by_cases handled : c.desk.handled = true
  · have calls : c.callsBy (.outside .requestClose) = if c.finished then [] else [.close] := by
      cases done : c.finished <;> simp [callsBy, handled, done]
    have desk : (c.aside (.outside .requestClose)).desk =
        if c.finished then c.desk else { c.desk with waiting := c.desk.waiting ++ [.close] } := by
      rw [aside, meet, if_pos handled, Connection.requestClose]
      split <;> rfl
    refine kept_snoc ?_ ?_
    · have next : (c.aside (.outside .requestClose)).desk.nextTicket = c.desk.nextTicket := by
        rw [desk]
        split <;> rfl
      rw [next]
      exact (congrArg _ (List.append_nil _)).trans h.numbered
    · rw [calls, desk, running]
      simpa only [asksBy, servesBy, repliesBy, requestsIn, List.filterMap_nil, List.map_nil, List.append_nil]
        using h.books.requestClose
  · have desk : (c.aside (.outside .requestClose)).desk = c.desk := by rw [aside, meet, if_neg handled]
    exact h.still ⟨rfl, by simp [callsBy, handled]⟩ rfl running ⟨c.desk.handled, desk⟩

theorem Kept.outside (h : Kept past c) (o : Outside) : Kept (past ++ [⟨c, .outside o⟩]) (c.meet o) := by
  have running : (c.perform (.outside o)).finished = c.finished := perform_finished nofun
  cases o with
  | request a => exact h.request a
  | requestClose => exact h.requestClose
  | clientSends bytes => exact h.still ⟨rfl, rfl⟩ rfl running ⟨_, by rw [aside, meet_clientSends]⟩
  | dropHandle => exact h.still ⟨rfl, rfl⟩ rfl running ⟨false, rfl⟩
  | _ => exact h.still ⟨rfl, rfl⟩ rfl running ⟨c.desk.handled, rfl⟩

theorem Kept.call (h : Kept past c) (able : c.canWake .call = true) :
    Kept (past ++ [⟨c, .wake .call⟩]) (c.perform (.wake .call)) := by
  obtain ⟨running, -, waits⟩ : c.finished = false ∧ c.serving = true ∧ c.desk.waiting ≠ [] := by
    simpa [canWake] using able
  obtain ⟨call, rest, oldest⟩ := List.exists_cons_of_ne_nil waits
  have desk : (c.aside (.wake .call)).desk =
      { c.desk with waiting := rest, answers := c.serve.desk.answers } := by
    cases call <;> simp only [aside, serve, oldest, absorb_desk, Desk.answer]
  have noted : c.serve.desk.answers.reverse = c.desk.answers.reverse ++ c.repliesBy (.wake .call) := by
    cases call <;> simp [serve, oldest, Desk.answer, repliesBy, servesBy, requestsIn, reply, absorb]
  have goesOn : (c.perform (.wake .call)).finished = c.finished := perform_finished (by simp)
  have books := h.books
  rw [running] at books
  refine kept_snoc ?_ ?_
  · rw [desk]
    exact (congrArg _ (List.append_nil _)).trans h.numbered
  · rw [goesOn, running, desk]
    simpa [asksBy, callsBy, servesBy, oldest] using books.serve oldest noted

theorem Kept.rest (h : Kept past c) : Kept (past ++ [⟨c, .rest⟩]) (c.perform .rest) := by
  by_cases done : c.endpoint.isClosed = true ∧ c.backlog.isEmpty = true
  · have desk : (c.aside .rest).desk = c.desk.shutDown := by simp [aside, windUp, done]
    refine kept_snoc ?_ ?_
    · rw [desk]
      exact (congrArg _ (List.append_nil _)).trans h.numbered
    · have finished : (c.perform .rest).finished = true := by simp [perform, windUp, done]
      rw [desk, finished]
      simpa [asksBy, callsBy, servesBy, repliesBy, requestsIn] using h.books.shutDown
  · have same : c.windUp.desk = c.desk ∧ c.windUp.finished = c.finished := by
      simp only [windUp]
      split
      · rename_i gone
        have more : ¬ c.backlog.isEmpty = true := fun empty => done ⟨gone, empty⟩
        rw [if_neg more]
        exact ⟨rfl, rfl⟩
      · exact ⟨rfl, rfl⟩
    exact h.still ⟨rfl, rfl⟩ rfl same.2 ⟨c.desk.handled, same.1⟩

/-! ## Reading the books -/

theorem mem_replies {ticket : Nat} {answer : Answer} :
    (ticket, answer) ∈ replies past ↔
      ∃ m ∈ past, ∃ a, .request ticket a ∈ m.before.servesBy m.deed ∧
        answer = (m.before.endpoint.act m.before.now a).1 := by
  simp only [replies, repliesBy, reply, List.mem_flatMap, List.mem_map, Prod.mk.injEq, Prod.exists,
    mem_requestsIn]
  constructor
  · rintro ⟨m, hm, _, a, served, rfl, rfl⟩
    exact ⟨m, hm, a, served, rfl⟩
  · rintro ⟨m, hm, a, served, rfl⟩
    exact ⟨m, hm, ticket, a, served, rfl, rfl⟩

theorem mem_served {call : Call} : call ∈ served past ↔ ∃ m ∈ past, call ∈ m.before.servesBy m.deed :=
  List.mem_flatMap

theorem Kept.served_asked (h : Kept past c) : requestsIn (served past) <+: asked past := by
  have books := h.books
  generalize c.desk = d, c.finished = finished at books
  cases books with
  | running whole inTurn answered => exact ⟨requestsIn d.waiting, by rw [whole, inTurn, requestsIn_append]⟩
  | ended left whole inTurn empty answered => exact ⟨left, whole.symm⟩

/-- No ticket is given out twice. -/
theorem Kept.nodup (h : Kept past c) : ((asked past).map Prod.fst).Nodup := by
  rw [h.numbered]
  exact List.nodup_range

theorem Kept.replied (h : Kept past c) : replies past <+: c.desk.answers.reverse := by
  have books := h.books
  generalize c.desk = d, c.finished = finished at books
  cases books with
  | running whole inTurn answered => exact ⟨[], by rw [answered, List.append_nil]⟩
  | ended left whole inTurn empty answered => exact ⟨left.map Desk.regret, answered.symm⟩

/-- A request without an answer waits for it. -/
theorem Kept.waits (h : Kept past c) {ticket : Nat} {a : Action} (made : (ticket, a) ∈ asked past)
    (unanswered : c.desk.answerTo? ticket = none) :
    .request ticket a ∈ c.desk.waiting ∧ c.finished = false := by
  have untold (answer : Answer) : (ticket, answer) ∉ c.desk.answers.reverse := by
    intro told
    simpa using List.lookup_eq_none_iff.1 unanswered _ (List.mem_reverse.1 told)
  have unserved : (ticket, a) ∉ requestsIn (served past) := by
    intro taken
    obtain ⟨m, hm, serves⟩ := mem_served.1 (mem_requestsIn.1 taken)
    exact untold _ (h.replied.subset (mem_replies.2 ⟨m, hm, a, serves, rfl⟩))
  have books := h.books
  generalize c.desk = d, c.finished = finished at books untold
  cases books with
  | running whole inTurn answered =>
    rw [whole, inTurn, requestsIn_append] at made
    exact ⟨mem_requestsIn.1 ((List.mem_append.1 made).resolve_left unserved), rfl⟩
  | ended left whole inTurn empty answered =>
    rw [whole] at made
    have late := (List.mem_append.1 made).resolve_left unserved
    refine absurd ?_ (untold (.error .closed))
    rw [answered]
    exact List.mem_append_right _ (List.mem_map_of_mem late)

/-- An answer is what the endpoint has replied, or it tells that nobody is there to serve the request. -/
theorem Kept.answered (h : Kept past c) {ticket : Nat} {answer : Answer}
    (told : c.desk.answerTo? ticket = some answer) :
    (ticket, answer) ∈ replies past ∨
      (∀ a, .request ticket a ∉ served past) ∧ answer = .error .closed ∧ c.finished = true := by
  have noted : (ticket, answer) ∈ c.desk.answers.reverse := by
    obtain ⟨later, earlier, whole, -⟩ := List.lookup_eq_some_iff.1 told
    rw [whole]
    simp
  have nodup := h.nodup
  have books := h.books
  generalize c.desk = d, c.finished = finished at books noted
  cases books with
  | running whole inTurn answered => exact .inl (answered ▸ noted)
  | ended left whole inTurn empty answered =>
    rw [answered] at noted
    refine (List.mem_append.1 noted).imp_right fun late => ?_
    obtain ⟨request, behind, same⟩ := List.mem_map.1 late
    cases same
    refine ⟨fun a taken => ?_, rfl, rfl⟩
    rw [whole, List.map_append] at nodup
    have before : request.1 ∈ (requestsIn (served past)).map Prod.fst :=
      List.mem_map.2 ⟨(request.1, a), mem_requestsIn.2 taken, rfl⟩
    exact List.disjoint_of_nodup_append nodup before (List.mem_map_of_mem behind)

end

namespace Course

variable {setup : ConnectionSetup} {past : List Leg} {stage : Stage} {c : Connection}

/-- **The books of the desk are kept all along.** -/
theorem kept (h : Course setup past stage c) : Kept past c := by
  induction h with
  | start => exact ⟨rfl, .running rfl rfl rfl⟩
  | @next past _ _ c d before allowed ih =>
    have moved : c.moveOldest.desk = c.desk := by rw [moveOldest_eq]
    cases allowed with
    | outside _ o => exact ih.outside o
    | @wake w able =>
      cases w with
      | call => exact ih.call able
      | room => exact ih.still ⟨rfl, rfl⟩ rfl (perform_finished nofun) ⟨c.desk.handled, moved⟩
      | _ => exact ih.still ⟨rfl, rfl⟩ rfl (perform_finished nofun) ⟨c.desk.handled, rfl⟩
    | write => exact ih.still ⟨rfl, rfl⟩ rfl (perform_finished nofun) ⟨c.desk.handled, rfl⟩
    | pass _ => exact ih.still ⟨rfl, rfl⟩ rfl (perform_finished nofun) ⟨c.desk.handled, moved⟩
    | rest _ => exact ih.rest

/-- As long as a call waits, somebody is there to serve it. -/
theorem attended (h : Course setup past stage c) (left : c.serving = false) :
    c.desk.handled = false ∧ c.desk.waiting = [] := by
  induction h with
  | start => cases left
  | @next past _ _ c d before allowed ih =>
    rw [perform_desk]
    have same : (c.perform d).serving = (c.aside d).serving := by rw [perform_eq]; rfl
    rw [same] at left
    cases allowed with
    | outside _ o =>
      obtain ⟨dropped, empty⟩ := ih (by rw [aside, meet_eq] at left; exact left)
      cases o with
      | request a | requestClose => rw [aside, meet, if_neg (by simp [dropped])]; exact ⟨dropped, empty⟩
      | clientSends bytes => rw [aside, meet_clientSends]; exact ⟨dropped, empty⟩
      | dropHandle => exact ⟨rfl, empty⟩
      | _ => exact ⟨dropped, empty⟩
    | @wake w able =>
      cases w with
      | call =>
        rw [canWake, show c.serving = false from left] at able
        simp at able
      | noHandle =>
        obtain ⟨-, ⟨-, empty⟩, dropped⟩ : c.finished = false ∧ (c.serving = true ∧ c.desk.waiting = []) ∧
            c.desk.handled = false := by simpa [canWake] using able
        exact ⟨dropped, empty⟩
      | room => rw [aside, moveOldest_eq] at left ⊢; exact ih left
      | _ => exact ih left
    | write => exact ih left
    | pass _ => rw [aside, moveOldest_eq] at left ⊢; exact ih left
    | rest _ =>
      obtain ⟨dropped, empty⟩ := ih (by rw [aside, windUp_eq] at left; exact left)
      rw [aside, windUp]
      split
      · dsimp only
        split
        · exact ⟨dropped, rfl⟩
        · exact ⟨dropped, empty⟩
      · exact ⟨dropped, empty⟩

end Course

end Connection
end MqttLink
