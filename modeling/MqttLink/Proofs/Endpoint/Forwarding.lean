import MqttLink.Proofs.Endpoint.Replies
import MqttLink.Proofs.Endpoint.Carriage
/-!
# Messages that are passed on

A message that has come from one client can be sent to another under the same topic. The topic is looked at
in two places: the reader looks at it in pieces, `publish` as a whole. They differ in one text, the empty
one, which the reader lets through (`topic_found`). So a message that the application has been told of can be
published, on any connection with an accepted client, unless its topic is empty (`received_forwardable`).
-/

namespace MqttLink

open Wire

namespace Packet

/-! ## The topics that are read -/

/-- The reader leaves nothing for `publish` to find but that a topic is empty. -/
theorem topic_of_decode {limit size : Nat} {buffer : Bytes} {m : Publish}
    (read : decode limit buffer = .packet (publish m) size) : Topic.isName m.topic = true ↔ m.topic ≠ "" := by
  have content : m.Carriable := (decode_eq_packet read).1
  rw [Topic.isName_iff, String.isEmpty_eq_false_iff]
  exact ⟨fun name => name.1, fun given => ⟨given, content.topic.short, content.plain, content.topic.clean⟩⟩

/-- **The topics that are read are the topic names and the empty text.** -/
theorem topic_found (s : String) :
    (∃ m : Publish, m.topic = s ∧ (publish m).Found) ↔ Topic.isName s = true ∨ s = "" := by
  constructor
  · rintro ⟨m, rfl, limit, buffer, size, read⟩
    exact (Classical.em (m.topic = "")).symm.imp_left (topic_of_decode read).2
  · intro known
    have carries : Field.Carries s ∧ Topic.hasWildcard s = false := by
      rcases known with name | rfl
      · exact Endpoint.carries_name name
      · exact ⟨⟨by decide, by decide⟩, by decide⟩
    obtain ⟨⟨short, clean⟩, plain⟩ := carries
    have carriable : (publish ⟨false, .atMostOnce, false, s, none, []⟩).Carriable := by
      refine ⟨⟨⟨short, clean⟩, plain, fun _ => ⟨rfl, rfl⟩, fun level => absurd rfl level⟩, ?_⟩
      exact Nat.le_trans (Nat.add_le_add_left short 2) (by decide)
    exact ⟨_, rfl, Length.maxLength, _, _, decode_bytes carriable carriable.small []⟩

end Packet

namespace Endpoint

open Reaction

/-! ## The messages that are told -/

/-- A message is told where its packet is dealt with. -/
theorem Move.publish_dispatched {now : Instant} {e : Endpoint} {d : Deed} {answer : Option Answer} {r : Reaction}
    {m : Publish} (move : Move now e d answer r) (hears : .publishReceived m ∈ r.events.toList) :
    Moment.dispatched ⟨now, e, d, answer, r⟩ = some (.publish m) := by
  cases move with
  | served phase fits =>
    have same := fits.same_stage.1
    cases fits with
    | levelZero | levelOne | levelTwo =>
      cases List.mem_singleton.1 hears
      exact dispatched_iff.2 ⟨rfl, phase, isClosed_connected (same.trans phase)⟩
    | _ => simp at hears
  | granted phase fits => simp [fits.same_stage.2.2] at hears
  | _ => simp [still] at hears

theorem course_published {e₀ e : Endpoint} {past : List Moment} {m : Publish} (h : Course e₀ past e)
    (hears : .publishReceived m ∈ told past) : .publish m ∈ dispatches past := by
  induction h with
  | start => cases hears
  | @next past e now d answer r before move ih =>
    rw [dispatches_append, dispatches_single, List.mem_append, Option.mem_toList]
    rw [told_snoc, List.mem_append] at hears
    exact hears.imp ih move.publish_dispatched

/-- Every message that is told has come as a packet. -/
theorem run_published {policy : Policy} {opened : Instant} {inputs : List (Instant × Input)} {m : Publish}
    (hears : .publishReceived m ∈ ((start policy opened).run inputs).events.toList) :
    .publish m ∈ received inputs := by
  rw [moments_events] at hears
  have dealt := course_published (course_moments (start policy opened) inputs) hears
  exact (moments_order (standing_start policy opened) inputs).subset (List.mem_append_left _ dealt)

/-! ## Publishing them -/

/-- For an accepted client, `publish` complains of a topic if and only if it is no topic name. -/
theorem act_invalidTopic {e : Endpoint} (phase : e.session.phase = .connected) (now : Instant) (topic : String)
    (payload : Bytes) (qos : Qos) (dup retain : Bool) :
    (e.act now (.publish topic payload qos dup retain)).1 = .error .invalidTopic ↔ Topic.isName topic = false := by
  have accepted : e.requireConnected = .ok () := requireConnected_eq_ok.2 phase
  simp only [act_eq, attempt, Endpoint.publish, accepted, bind, Except.bind]
  cases name : Topic.isName topic with
  | false => simp
  | true =>
    -- an exchange that does not take place is never put down to the topic
    simp only [if_true]
    split
    · simp
    · rename_i error failed
      split at failed
      · rename_i fault _
        cases failed
        cases fault <;> simp [ExchangeError.asRefusal]
      · cases failed

/-- **A message that has been received can be published again unless its topic is empty.** A topic that has been
read from bytes is a topic name, or else empty. So when a message that the application has been told of is passed
on, to any accepted client, `publish` complains of its topic exactly if that is empty. -/
theorem received_forwardable (m : Publish) :
    (∀ limit buffer size, decode limit buffer = .packet (.publish m) size →
      (Topic.isName m.topic = true ↔ m.topic ≠ "")) ∧
    ∀ policy opened inputs, (∀ p ∈ received inputs, p.Found) →
      .publishReceived m ∈ ((start policy opened).run inputs).events.toList →
        ∀ e : Endpoint, e.session.phase = .connected → ∀ now payload qos dup retain,
          ((e.act now (.publish m.topic payload qos dup retain)).1 = .error .invalidTopic ↔ m.topic = "") := by
  refine ⟨fun _ _ _ => Packet.topic_of_decode, ?_⟩
  intro policy opened inputs found hears e phase now payload qos dup retain
  obtain ⟨limit, buffer, size, read⟩ := found _ (run_published hears)
  have only : Topic.isName m.topic = false ↔ m.topic = "" := by
    rw [Bool.eq_false_iff, ne_eq, Packet.topic_of_decode read, not_not]
  exact (act_invalidTopic phase now m.topic payload qos dup retain).trans only

/-- A client that is let in and publishes under a topic. -/
def publishing (topic : String) : List (Instant × Input) :=
  [(0, .packet (.connect ⟨.v311, "c", true, 0, none, none, none⟩)),
    (1, .action (.accept false)),
    (2, .packet (.publish ⟨false, .atMostOnce, false, topic, none, []⟩))]

theorem publishing_forwardable :
    (∀ p ∈ received (publishing "t"), p.Found) ∧
    .publishReceived ⟨false, .atMostOnce, false, "t", none, []⟩ ∈
      ((start ⟨none, none, true⟩ 0).run (publishing "t")).events.toList ∧
    ((start ⟨none, none, true⟩ 0).run (publishing "t")).endpoint.session.phase = .connected ∧
    (((start ⟨none, none, true⟩ 0).run (publishing "t")).endpoint.act 3
      (.publish "t" [] .atMostOnce false false)).1 ≠ .error .invalidTopic := by
  have found : ∀ p ∈ received (publishing "t"), p.Found := by
    refine List.forall_mem_cons.2 ⟨?_, List.forall_mem_singleton.2 ?_⟩
    · exact ⟨13, [0x10, 13, 0, 4, 0x4D, 0x51, 0x54, 0x54, 4, 2, 0, 0, 0, 1, 0x63], 15, by decide⟩
    · exact ⟨3, [0x30, 3, 0, 1, 0x74], 5, by decide⟩
  have hears : .publishReceived ⟨false, .atMostOnce, false, "t", none, []⟩ ∈
      ((start ⟨none, none, true⟩ 0).run (publishing "t")).events.toList := by decide
  have phase : ((start ⟨none, none, true⟩ 0).run (publishing "t")).endpoint.session.phase = .connected := by decide
  refine ⟨found, hears, phase, fun refused => ?_⟩
  have empty := ((received_forwardable _).2 _ _ _ found hears _ phase 3 [] .atMostOnce false false).1 refused
  exact absurd empty (by decide)

/-- A message whose topic is empty is read and told, and cannot be published. -/
theorem unnamed_unforwardable :
    decode 100 [0x30, 0x02, 0x00, 0x00] = .packet (.publish ⟨false, .atMostOnce, false, "", none, []⟩) 4 ∧
    Topic.isName "" = false ∧
    .publishReceived ⟨false, .atMostOnce, false, "", none, []⟩ ∈
      ((start ⟨none, none, true⟩ 0).run (publishing "")).events.toList ∧
    (((start ⟨none, none, true⟩ 0).run (publishing "")).endpoint.act 3
      (.publish "" [] .atMostOnce false false)).1 = .error .invalidTopic := by
  decide

end Endpoint
end MqttLink
