import MqttLink.Proofs.Endpoint.Phases
/-!
# The answers to SUBSCRIBE and UNSUBSCRIBE

Both wait for the application under the identifier that the client has chosen, each in a table of its own.
What is asked and answered under one identifier is a `Dialogue`: requests and answers in turn, and each
answer has as many codes as its request has filters.

The invariant is that the endpoint remembers the request that is still open, and nothing else: `Remark` says
what a move can do to either, and `Minutes` carries it along a run. So what comes of a request or of an answer
goes by the dialogue of its own kind alone, which is what `Obliging` says.
-/

namespace MqttLink

/-- What a client asks for under an identifier: the two kinds have identifiers of their own. -/
inductive Matter where
  | subscribe
  | unsubscribe
deriving DecidableEq, Repr

namespace Event

/-- The request of the client that is handed over, by its kind and its identifier. -/
def request : Event → Option (Matter × PacketId)
  | subscribeRequest id _ => some (.subscribe, id)
  | unsubscribeRequest id _ => some (.unsubscribe, id)
  | _ => none

/-- The packet in which the client makes the request. -/
def petition : Event → Option Packet
  | subscribeRequest id subs => some (.subscribe id subs)
  | unsubscribeRequest id filters => some (.unsubscribe id filters)
  | _ => none

/-- How many codes the answer to a request has. -/
def codesDue : Event → Nat
  | subscribeRequest _ subs => subs.length
  | _ => 0

end Event

namespace Packet

/-- The request that is answered, by its kind and its identifier. -/
def settles : Packet → Option (Matter × PacketId)
  | suback id _ => some (.subscribe, id)
  | unsuback id => some (.unsubscribe, id)
  | _ => none

/-- How the application gives the answer. -/
def ruling : Packet → Option Action
  | suback id codes => some (.subscribeAcknowledge id codes)
  | unsuback id => some (.unsubscribeAcknowledge id)
  | _ => none

/-- The codes in an answer. -/
def codes : Packet → List SubackCode
  | suback _ codes => codes
  | _ => []

end Packet

/-- A turn in the talk between the client and the application. -/
inductive Turn where
  /-- The application is told of a request. -/
  | ask (request : Event)
  /-- The client is sent the answer. -/
  | answer (packet : Packet)
deriving DecidableEq, Repr

namespace Turn

def request? : Turn → Option Event
  | ask request => some request
  | answer _ => none

def packet? : Turn → Option Packet
  | ask _ => none
  | answer packet => some packet

end Turn

/-- Requests and their answers in turn, with the request that is still open. An answer has as many codes as
the request before it asks for. -/
inductive Dialogue : List Turn → Option Event → Prop where
  | silence : Dialogue [] none
  | ask {talk : List Turn} (request : Event) (before : Dialogue talk none) :
    Dialogue (talk ++ [.ask request]) (some request)
  | answer {talk : List Turn} {request : Event} {packet : Packet} (before : Dialogue talk (some request))
    (complete : packet.codes.length = request.codesDue) : Dialogue (talk ++ [.answer packet]) none

/-- The request with which a talk ends, if it does not end with an answer. -/
def openRequest (talk : List Turn) : Option Event := talk.getLast?.bind Turn.request?

/-- The request that is open is the one that was made last. -/
theorem Dialogue.last {talk : List Turn} {request : Option Event} (h : Dialogue talk request) :
    openRequest talk = request := by
  cases h with
  | silence => rfl
  | ask request before => simp [openRequest, Turn.request?]
  | answer before complete => simp [openRequest, Turn.request?]

namespace Endpoint

open Reaction

/-- Whether a request waits under an identifier, and how many codes its answer has to have. -/
def waiting (e : Endpoint) (matter : Matter) (id : PacketId) : Option Nat :=
  match matter with
  | .subscribe => e.subscribes[id]?
  | .unsubscribe => if e.unsubscribes.contains id then some 0 else none

/-- The turns that are taken at a moment in the talk about one kind of request under an identifier. -/
def Moment.turns (matter : Matter) (id : PacketId) (m : Moment) : List Turn :=
  (m.events.filter (·.request = some (matter, id))).map .ask ++
    (m.packets.filter (·.settles = some (matter, id))).map .answer

/-- The whole talk about one kind of request under an identifier. -/
def talk (matter : Matter) (id : PacketId) (past : List Moment) : List Turn := past.flatMap (·.turns matter id)

theorem talk_snoc (matter : Matter) (id : PacketId) (past : List Moment) (m : Moment) :
    talk matter id (past ++ [m]) = talk matter id past ++ m.turns matter id := by
  simp [talk]

/-- The requests in a talk are those of which the application is told. -/
theorem talk_requests (matter : Matter) (id : PacketId) (past : List Moment) :
    (talk matter id past).filterMap Turn.request? = (told past).filter (·.request = some (matter, id)) := by
  have turns (m : Moment) :
      (m.turns matter id).filterMap Turn.request? = m.events.filter (·.request = some (matter, id)) := by
    simp [Moment.turns, List.filterMap_append, List.filterMap_map, Function.comp_def, Turn.request?]
  rw [talk, told, List.filterMap_flatMap, List.filter_flatMap]
  exact congrArg (List.flatMap · past) (funext turns)

/-- The answers in a talk are those that the client is sent. -/
theorem talk_packets (matter : Matter) (id : PacketId) (past : List Moment) :
    (talk matter id past).filterMap Turn.packet? = (said past).filter (·.settles = some (matter, id)) := by
  have turns (m : Moment) :
      (m.turns matter id).filterMap Turn.packet? = m.packets.filter (·.settles = some (matter, id)) := by
    simp [Moment.turns, List.filterMap_append, List.filterMap_map, Function.comp_def, Turn.packet?]
  rw [talk, said, List.filterMap_flatMap, List.filter_flatMap]
  exact congrArg (List.flatMap · past) (funext turns)

/-! ## The two tables -/

section

variable (e : Endpoint) (k : PacketId) (matter : Matter) (id : PacketId)

theorem waiting_subscribe (n : Nat) :
    waiting { e with subscribes := e.subscribes.insert k n } matter id =
      if (Matter.subscribe, k) = (matter, id) then some n else e.waiting matter id := by
  cases matter with
  | subscribe => simp [waiting, getElem?_insert_id]
  | unsubscribe => simp [waiting]

theorem waiting_suback :
    waiting { e with subscribes := e.subscribes.erase k } matter id =
      if (Matter.subscribe, k) = (matter, id) then none else e.waiting matter id := by
  cases matter with
  | subscribe => simp [waiting, getElem?_erase_id]
  | unsubscribe => simp [waiting]

theorem waiting_unsubscribe :
    waiting { e with unsubscribes := e.unsubscribes.insert k } matter id =
      if (Matter.unsubscribe, k) = (matter, id) then some 0 else e.waiting matter id := by
  cases matter with
  | subscribe => simp [waiting]
  | unsubscribe => by_cases same : k = id <;> simp [waiting, same]

theorem waiting_unsuback :
    waiting { e with unsubscribes := e.unsubscribes.erase k } matter id =
      if (Matter.unsubscribe, k) = (matter, id) then none else e.waiting matter id := by
  cases matter with
  | subscribe => simp [waiting]
  | unsubscribe => by_cases same : k = id <;> simp [waiting, same]

end

theorem waiting_unused {e : Endpoint} {id : PacketId} (unused : e.subscribes.contains id = false) :
    e.waiting .subscribe id = none := by
  rw [Std.TreeMap.contains_eq_isSome_getElem?] at unused
  exact Option.isNone_iff_eq_none.1 (Option.isSome_eq_false_iff.1 unused)

/-! ## One move -/

/-- What a deed does in the talk about one kind of request under an identifier: a request is made, or the
open one is answered, or what waits is left alone, unless the connection ends. -/
inductive Remark (matter : Matter) (id : PacketId) (m : Moment) : Prop where
  | ask (request : Event) (opened : m.before.isClosed = false) (free : m.before.waiting matter id = none)
    (turn : m.turns matter id = [.ask request]) (after : m.after.waiting matter id = some request.codesDue)
  | answer (packet : Packet) (opened : m.before.isClosed = false)
    (due : m.before.waiting matter id = some packet.codes.length)
    (turn : m.turns matter id = [.answer packet]) (after : m.after.waiting matter id = none)
  | apart (silent : m.turns matter id = [])
    (same : m.after.isClosed = false → m.after.waiting matter id = m.before.waiting matter id)

/-- Nothing is said about requests where no event hands one over and no packet answers one. -/
theorem turns_silent {matter : Matter} {id : PacketId} {m : Moment}
    (events : ∀ event ∈ m.events, event.request ≠ some (matter, id))
    (packets : ∀ p ∈ m.packets, p.settles ≠ some (matter, id)) : m.turns matter id = [] := by
  have unasked : m.events.filter (·.request = some (matter, id)) = [] := by
    rw [List.filter_eq_nil_iff]
    intro event he
    simpa using events event he
  have unsettled : m.packets.filter (·.settles = some (matter, id)) = [] := by
    rw [List.filter_eq_nil_iff]
    intro p hp
    simpa using packets p hp
  rw [Moment.turns, unasked, unsettled]
  rfl

/-- What an accepted client sends is not answered before the application has been asked. -/
theorem Served.unsettled {e : Endpoint} {p : Packet} {r : Reaction} (h : Served e p r) :
    ∀ q ∈ r.packets.toList, q.settles = none := by
  have own (ack : Packet) (other : ack.settles = none) : ∀ q ∈ (e.reply ack).toList, q.settles = none := by
    unfold reply
    split <;> simp [other]
  cases h with
  | levelOne | levelTwo | pubrec | pubrel => exact own _ rfl
  | _ => simp [Packet.settles]

section

variable {m : Moment} {kind matter : Matter} {k id : PacketId}

/-- A request of which the application is told waits from then on. -/
theorem remark_asked {request : Event} (opened : m.before.isClosed = false) (events : m.events = [request])
    (packets : m.packets = []) (asks : request.request = some (kind, k)) (free : m.before.waiting kind k = none)
    (table : m.after.waiting matter id =
      if (kind, k) = (matter, id) then some request.codesDue else m.before.waiting matter id) :
    Remark matter id m := by
  by_cases same : (kind, k) = (matter, id)
  · rw [if_pos same] at table
    cases same
    exact .ask request opened free (by simp [Moment.turns, events, packets, asks]) table
  · rw [if_neg same] at table
    exact .apart (turns_silent (by simpa [events, asks] using same) (by simp [packets])) fun _ => table

/-- A request that is answered does not wait any more. -/
theorem remark_answered {packet : Packet} (opened : m.before.isClosed = false) (events : m.events = [])
    (packets : m.packets = [packet]) (settles : packet.settles = some (kind, k))
    (due : m.before.waiting kind k = some packet.codes.length)
    (table : m.after.waiting matter id =
      if (kind, k) = (matter, id) then none else m.before.waiting matter id) :
    Remark matter id m := by
  by_cases same : (kind, k) = (matter, id)
  · rw [if_pos same] at table
    cases same
    exact .answer packet opened due (by simp [Moment.turns, events, packets, settles]) table
  · rw [if_neg same] at table
    exact .apart (turns_silent (by simp [events]) (by simpa [packets, settles] using same)) fun _ => table

end

theorem served_remark {now : Instant} {e : Endpoint} {p : Packet} {r : Reaction} (matter : Matter) (id : PacketId)
    (phase : e.session.phase = .connected) (fits : Served (e.touched now) p r) :
    Remark matter id ⟨now, e, .input (.packet p), none, r⟩ := by
  have unsettled : ∀ q ∈ r.packets.toList, q.settles ≠ some (matter, id) := by
    intro q hq
    simp [fits.unsettled q hq]
  have opened := isClosed_connected phase
  cases fits with
  | @subscribe k subs valid unused =>
    exact remark_asked opened rfl rfl rfl (waiting_unused unused)
      (waiting_subscribe (e.touched now) k matter id subs.length)
  | @unsubscribe k filters valid unused =>
    exact remark_asked opened rfl rfl rfl (if_neg (Bool.eq_false_iff.1 unused))
      (waiting_unsubscribe (e.touched now) k matter id)
  | levelZero | levelOne | levelTwo | again | puback | pubrec | pubrel | pubcomp | pingreq =>
    exact .apart (turns_silent (by simp [Moment.events, Event.request]) unsettled) fun _ => rfl

theorem granted_remark {now : Instant} {e : Endpoint} {a : Action} {given : Option PacketId} {r : Reaction}
    (matter : Matter) (id : PacketId) (phase : e.session.phase = .connected) (fits : Granted e a given r) :
    Remark matter id ⟨now, e, .input (.action a), some (.ok given), r⟩ := by
  have unasked : ∀ event ∈ r.events.toList, event.request ≠ some (matter, id) := by
    simp [fits.same_stage.2.2]
  have opened := isClosed_connected phase
  cases fits with
  | @subscribeAcknowledge k codes due =>
    exact remark_answered opened rfl rfl rfl due (waiting_suback e k matter id)
  | @unsubscribeAcknowledge k due =>
    exact remark_answered opened rfl rfl rfl (if_pos due) (waiting_unsuback e k matter id)
  | retransmit fits =>
    refine .apart (turns_silent unasked ?_) fun _ => rfl
    obtain ⟨-, ⟨_, -, rfl, -⟩ | ⟨-, rfl, -⟩⟩ := InFlight.retransmit_eq_ok.1 fits <;>
      simp [Moment.packets, Packet.settles]
  | publish | publishAcknowledge | publishReceived | publishRelease | publishComplete =>
    exact .apart (turns_silent unasked (by simp [Moment.packets, Packet.settles])) fun _ => rfl

theorem move_remark {now : Instant} {e : Endpoint} {d : Deed} {answer : Option Answer} {r : Reaction}
    (matter : Matter) (id : PacketId) (move : Move now e d answer r) : Remark matter id ⟨now, e, d, answer, r⟩ := by
  cases move with
  | served phase fits => exact served_remark matter id phase fits
  | granted phase fits => exact granted_remark matter id phase fits
  | ignored | deferred | idle | denied => exact .apart rfl fun _ => rfl
  | asked => exact .apart rfl fun _ => rfl
  | welcomed => exact .apart rfl fun _ => rfl
  | refused | ended =>
    refine .apart rfl fun opened => ?_
    rw [Moment.after, isClosed_ended] at opened
    cases opened

/-! ## Whole runs -/

/-- What has been asked and answered is a dialogue, and the endpoint remembers the request that is open. -/
structure Minutes (matter : Matter) (id : PacketId) (past : List Moment) (e : Endpoint) (request : Option Event) :
    Prop where
  dialogue : Dialogue (talk matter id past) request
  waits : e.isClosed = false → e.waiting matter id = request.map Event.codesDue

theorem minutes_next {matter : Matter} {id : PacketId} {past : List Moment} {e : Endpoint} {request : Option Event}
    {now : Instant} {d : Deed} {answer : Option Answer} {r : Reaction} (h : Minutes matter id past e request)
    (move : Move now e d answer r) :
    ∃ request', Minutes matter id (past ++ [⟨now, e, d, answer, r⟩]) r.endpoint request' := by
  have more := talk_snoc matter id past ⟨now, e, d, answer, r⟩
  cases move_remark matter id move with
  | ask request' opened free turn after =>
    have waits := (h.waits opened).symm.trans free
    obtain rfl : request = none := Option.map_eq_none_iff.1 waits
    exact ⟨some request', by rw [more, turn]; exact .ask request' h.dialogue, fun _ => after⟩
  | answer packet opened due turn after =>
    have waits := (h.waits opened).symm.trans due
    obtain ⟨request, rfl, complete⟩ := Option.map_eq_some_iff.1 waits
    exact ⟨none, by rw [more, turn]; exact .answer h.dialogue complete.symm, fun _ => after⟩
  | apart silent same =>
    refine ⟨request, by rw [more, silent, List.append_nil]; exact h.dialogue, fun opened => ?_⟩
    exact (same opened).trans (h.waits (move.opened opened))

theorem course_minutes {policy : Policy} {opened : Instant} {past : List Moment} {e : Endpoint}
    (matter : Matter) (id : PacketId) (h : Course (start policy opened) past e) :
    ∃ request, Minutes matter id past e request := by
  induction h with
  | start =>
    refine ⟨none, .silence, fun _ => ?_⟩
    cases matter <;> simp [waiting, start]
  | next _ move ih =>
    obtain ⟨request, minutes⟩ := ih
    exact minutes_next minutes move

/-! ## What comes of each of the four inputs -/

/-- What comes of SUBSCRIBE from an accepted client, if one waits under its identifier or none. -/
def afterSubscribe (now : Instant) (id : PacketId) (subs : List Subscription) (e : Endpoint) (waits : Bool) :
    Reaction :=
  if id = 0 then ⟨e.ended, #[], #[.closed (.protocolError (.zeroPacketId .subscribe)) e.session.will]⟩
  else if waits then
    ⟨e.ended, #[], #[.closed (.protocolError (.packetIdInUse .subscribe id)) e.session.will]⟩
  else
    ⟨{ e.touched now with subscribes := e.subscribes.insert id subs.length }, #[], #[.subscribeRequest id subs]⟩

/-- What comes of UNSUBSCRIBE from an accepted client, if one waits under its identifier or none. -/
def afterUnsubscribe (now : Instant) (id : PacketId) (filters : List String) (e : Endpoint) (waits : Bool) :
    Reaction :=
  if id = 0 then ⟨e.ended, #[], #[.closed (.protocolError (.zeroPacketId .unsubscribe)) e.session.will]⟩
  else if waits then
    ⟨e.ended, #[], #[.closed (.protocolError (.packetIdInUse .unsubscribe id)) e.session.will]⟩
  else
    ⟨{ e.touched now with unsubscribes := e.unsubscribes.insert id }, #[], #[.unsubscribeRequest id filters]⟩

/-- What comes of the answer to SUBSCRIBE, if one waits that asks for so many codes, or none. With any other
number of codes nothing changes, so it still waits. -/
def afterSuback (id : PacketId) (codes : List SubackCode) (e : Endpoint) : Option Nat → Answer × Reaction
  | none => (.error (.unknownSubscribe id), still e)
  | some due =>
    if codes.length = due then
      (.ok none, ⟨{ e with subscribes := e.subscribes.erase id }, #[.suback id codes], #[]⟩)
    else (.error (.returnCodeCountMismatch due codes.length), still e)

/-- What comes of the answer to UNSUBSCRIBE, if one waits or none. -/
def afterUnsuback (id : PacketId) (e : Endpoint) (waits : Bool) : Answer × Reaction :=
  if waits then (.ok none, ⟨{ e with unsubscribes := e.unsubscribes.erase id }, #[.unsuback id], #[]⟩)
  else (.error (.unknownUnsubscribe id), still e)

section

variable {e : Endpoint} (phase : e.session.phase = .connected) (now : Instant) (id : PacketId)

include phase

theorem violation_touched (error : ProtocolError) :
    (e.touched now).violation error =
      ⟨e.ended, #[], #[.closed (.protocolError error) e.session.will]⟩ := by
  have released : e.releasedWill (.protocolError error) = e.session.will := by
    simp [releasedWill, Session.isConnected, phase, CloseReason.isGraceful]
  rw [← released]
  exact closeWith_open (.protocolError error) (isClosed_connected phase)

theorem receive_connected (p : Packet) : e.receive now p = (e.touched now).dispatch p := by
  simp only [receive, phase]
  rfl

theorem receive_subscribe (subs : List Subscription) :
    e.receive now (.subscribe id subs) = e.afterSubscribe now id subs (e.subscribes.contains id) := by
  simp only [receive_connected phase, dispatch, onSubscribe, violation_touched phase]
  rfl

theorem receive_unsubscribe (filters : List String) :
    e.receive now (.unsubscribe id filters) = e.afterUnsubscribe now id filters (e.unsubscribes.contains id) := by
  simp only [receive_connected phase, dispatch, onUnsubscribe, violation_touched phase]
  rfl

theorem act_subscribeAcknowledge (codes : List SubackCode) :
    e.act now (.subscribeAcknowledge id codes) = e.afterSuback id codes e.subscribes[id]? := by
  have connected : e.requireConnected = .ok () := requireConnected_eq_ok.2 phase
  simp only [act_eq, attempt, subscribeAcknowledge, connected, bind, Except.bind]
  cases e.subscribes[id]? with
  | none => rfl
  | some due => by_cases complete : codes.length = due <;> simp only [afterSuback, complete] <;> rfl

theorem act_unsubscribeAcknowledge :
    e.act now (.unsubscribeAcknowledge id) = e.afterUnsuback id (e.unsubscribes.contains id) := by
  have connected : e.requireConnected = .ok () := requireConnected_eq_ok.2 phase
  simp only [act_eq, attempt, unsubscribeAcknowledge, connected, bind, Except.bind]
  cases e.unsubscribes.contains id <;> rfl

end

/-- How an endpoint with an accepted client deals with requests under an identifier, and with the answers to
them: by what is open in the talk about the same kind, and whatever is open in the other. -/
structure Obliging (e : Endpoint) (id : PacketId) (subscribing unsubscribing : Option Event) : Prop where
  subscribe : ∀ now subs,
    e.receive now (.subscribe id subs) = e.afterSubscribe now id subs subscribing.isSome
  subscribeAcknowledge : ∀ now codes,
    e.act now (.subscribeAcknowledge id codes) = e.afterSuback id codes (subscribing.map Event.codesDue)
  unsubscribe : ∀ now filters,
    e.receive now (.unsubscribe id filters) = e.afterUnsubscribe now id filters unsubscribing.isSome
  unsubscribeAcknowledge : ∀ now,
    e.act now (.unsubscribeAcknowledge id) = e.afterUnsuback id unsubscribing.isSome

/-- An endpoint that remembers what is open goes by it. -/
theorem obliging_waiting {e : Endpoint} {id : PacketId} {subscribing unsubscribing : Option Event}
    (phase : e.session.phase = .connected)
    (subscribes : e.waiting .subscribe id = subscribing.map Event.codesDue)
    (unsubscribes : e.waiting .unsubscribe id = unsubscribing.map Event.codesDue) :
    Obliging e id subscribing unsubscribing := by
  have table : e.subscribes[id]? = subscribing.map Event.codesDue := subscribes
  have used : e.subscribes.contains id = subscribing.isSome := by
    rw [Std.TreeMap.contains_eq_isSome_getElem?, table, Option.isSome_map]
  have used' : e.unsubscribes.contains id = unsubscribing.isSome := by
    rw [← Option.isSome_map (f := Event.codesDue), ← unsubscribes, waiting]
    cases e.unsubscribes.contains id <;> rfl
  constructor
  · intro now subs
    rw [receive_subscribe phase, used]
  · intro now codes
    rw [act_subscribeAcknowledge phase, table]
  · intro now filters
    rw [receive_unsubscribe phase, used']
  · intro now
    rw [act_unsubscribeAcknowledge phase, used']

/-! ## Where requests and answers come from -/

/-- A request is told when its packet is dealt with, and an answer is sent when the application gives it; and
nothing else is told or sent then. -/
structure Forthright (m : Moment) : Prop where
  request : ∀ event ∈ m.events, ∀ p, event.petition = some p →
    m.deed = .input (.packet p) ∧ m.events = [event] ∧ m.packets = []
  answer : ∀ p a, p.ruling = some a →
    (p ∈ m.packets ↔ m.deed = .input (.action a) ∧ m.answer = some (.ok none)) ∧
    (p ∈ m.packets → m.packets = [p] ∧ m.events = [])

theorem settles_ruling {p : Packet} {a : Action} (ruling : p.ruling = some a) : p.settles ≠ none := by
  cases p <;> cases ruling <;> nofun

theorem Move.petitioned {now : Instant} {e : Endpoint} {d : Deed} {answer : Option Answer} {r : Reaction}
    (move : Move now e d answer r) {event : Event} {p : Packet} (told : event ∈ r.events.toList)
    (petition : event.petition = some p) :
    d = .input (.packet p) ∧ r.events.toList = [event] ∧ r.packets.toList = [] := by
  cases move with
  | served phase fits =>
    cases fits with
    | subscribe | unsubscribe =>
      simp only [List.mem_singleton] at told
      subst told
      cases petition
      exact ⟨rfl, rfl, rfl⟩
    | levelZero | levelOne | levelTwo | puback | pubrec | pubrel | pubcomp | pingreq =>
      simp only [List.mem_singleton] at told
      subst told
      cases petition
    | again => cases told
  | granted phase fits =>
    rw [fits.same_stage.2.2] at told
    cases told
  | ignored | deferred | welcomed | idle | denied => cases told
  | asked | refused | ended =>
    simp only [List.mem_singleton] at told
    subst told
    cases petition

theorem Move.ruled {now : Instant} {e : Endpoint} {d : Deed} {answer : Option Answer} {r : Reaction}
    (move : Move now e d answer r) {p : Packet} {a : Action} (said : p ∈ r.packets.toList)
    (ruling : p.ruling = some a) :
    d = .input (.action a) ∧ answer = some (.ok none) ∧ r.packets.toList = [p] ∧ r.events.toList = [] := by
  cases move with
  | served phase fits => exact absurd (fits.unsettled p said) (settles_ruling ruling)
  | granted phase fits =>
    cases fits with
    | subscribeAcknowledge | unsubscribeAcknowledge =>
      simp only [List.mem_singleton] at said
      subst said
      cases ruling
      exact ⟨rfl, rfl, rfl, rfl⟩
    | retransmit fits =>
      simp only [List.mem_singleton] at said
      subst said
      obtain ⟨-, ⟨_, -, rfl, -⟩ | ⟨-, rfl, -⟩⟩ := InFlight.retransmit_eq_ok.1 fits <;> cases ruling
    | publish | publishAcknowledge | publishReceived | publishRelease | publishComplete =>
      simp only [List.mem_singleton] at said
      subst said
      cases ruling
  | ignored | asked | deferred | idle | denied | ended => cases said
  | welcomed | refused =>
    simp only [List.mem_singleton] at said
    subst said
    cases ruling

/-- An answer that is given is sent. -/
theorem Move.rules {now : Instant} {e : Endpoint} {a : Action} {r : Reaction} {p : Packet}
    (move : Move now e (.input (.action a)) (some (.ok none)) r) (ruling : p.ruling = some a) :
    p ∈ r.packets.toList := by
  have answers : (∃ id codes, p = .suback id codes ∧ a = .subscribeAcknowledge id codes) ∨
      ∃ id, p = .unsuback id ∧ a = .unsubscribeAcknowledge id := by
    cases p with
    | suback id codes => cases ruling; exact .inl ⟨id, codes, rfl, rfl⟩
    | unsuback id => cases ruling; exact .inr ⟨id, rfl, rfl⟩
    | _ => cases ruling
  generalize given : (some (.ok none) : Option Answer) = answer at move
  cases move with
  | ignored => cases given
  | denied => cases given
  | granted phase fits =>
    obtain ⟨id, codes, rfl, rfl⟩ | ⟨id, rfl, rfl⟩ := answers <;> cases fits <;> exact List.mem_singleton_self _
  | refused _ refuses => obtain ⟨id, codes, rfl, rfl⟩ | ⟨id, rfl, rfl⟩ := answers <;> cases refuses
  | ended => cases given

theorem forthright_move {now : Instant} {e : Endpoint} {d : Deed} {answer : Option Answer} {r : Reaction}
    (move : Move now e d answer r) : Forthright ⟨now, e, d, answer, r⟩ where
  request _ told _ petition := move.petitioned told petition
  answer p a ruling := by
    refine ⟨⟨fun said => ?_, ?_⟩, fun said => (move.ruled said ruling).2.2⟩
    · obtain ⟨deed, given, -⟩ := move.ruled said ruling
      exact ⟨deed, given⟩
    · rintro ⟨rfl, rfl⟩
      exact move.rules ruling

/-- **SUBSCRIBE and UNSUBSCRIBE are answered completely and at most once.** Whatever happens to an endpoint, in
whatever order: of each kind and under each identifier, the requests that the application is told of and the
answers that the client is sent follow each other in turn, each answer with a code for every filter, just as
the application gives it. What comes of a request or an answer goes by what is open of the same kind, and
nothing else changes what waits. -/
theorem run_dialogues (policy : Policy) (opened : Instant) (inputs : List (Instant × Input)) (id : PacketId) :
    let r := (start policy opened).run inputs
    let moments := (start policy opened).moments inputs
    (∀ matter,
      Dialogue (talk matter id moments) (openRequest (talk matter id moments)) ∧
      (talk matter id moments).filterMap Turn.request? =
        r.events.toList.filter (·.request = some (matter, id)) ∧
      (talk matter id moments).filterMap Turn.packet? =
        r.packets.toList.filter (·.settles = some (matter, id))) ∧
    (∀ m ∈ moments, Forthright m ∧ ∀ matter, m.turns matter id = [] → m.after.isClosed = false →
      m.after.waiting matter id = m.before.waiting matter id) ∧
    (r.endpoint.session.phase = .connected →
      Obliging r.endpoint id (openRequest (talk .subscribe id moments)) (openRequest (talk .unsubscribe id moments))) := by
  intro r moments
  have course : Course (start policy opened) moments r.endpoint := course_moments (start policy opened) inputs
  have events : r.events.toList = told moments := moments_events _ _
  have packets : r.packets.toList = said moments := moments_packets _ _
  refine ⟨fun matter => ⟨?_, ?_, ?_⟩, fun m hm => ?_, fun phase => ?_⟩
  · obtain ⟨request, minutes⟩ := course_minutes matter id course
    rw [minutes.dialogue.last]
    exact minutes.dialogue
  · rw [events]
    exact talk_requests matter id moments
  · rw [packets]
    exact talk_packets matter id moments
  · obtain ⟨earlier, later, split⟩ := List.append_of_mem hm
    rw [split] at course
    have move := (course_split course).2
    refine ⟨forthright_move move, fun matter silent stays => ?_⟩
    cases move_remark matter id move with
    | ask request _ _ turn => rw [show m.turns matter id = _ from turn] at silent; cases silent
    | answer packet _ _ turn => rw [show m.turns matter id = _ from turn] at silent; cases silent
    | apart _ same => exact same stays
  · have isOpen := isClosed_connected phase
    obtain ⟨subscribing, minutes⟩ := course_minutes .subscribe id course
    obtain ⟨unsubscribing, minutes'⟩ := course_minutes .unsubscribe id course
    rw [minutes.dialogue.last, minutes'.dialogue.last]
    exact obliging_waiting phase (minutes.waits isOpen) (minutes'.waits isOpen)

end Endpoint
end MqttLink
