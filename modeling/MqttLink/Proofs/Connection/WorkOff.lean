import MqttLink.Connection.Turn
import MqttLink.Proofs.Endpoint.Story
import MqttLink.Proofs.Wire.Chunks
/-!
# Working off the buffer

The buffer is worked off packet by packet, and each packet can change whether the next may be read.
`workOff_eq` says in one equation what it comes to: some bytes leave the buffer, and the endpoint is run
on what was found in them. `workOff_peels` says that what was found are the packets that stand at the
front, and `workOff_stops` that none is left as long as packets may be read.
-/

namespace MqttLink

open Wire

/-! ## Inputs that end a connection -/

namespace Endpoint

open Reaction

theorem closeWith_closes (e : Endpoint) (reason : CloseReason) :
    (e.closeWith reason).endpoint.isClosed = true := by
  cases gone : e.isClosed with
  | true => rw [closeWith_over reason gone]; exact gone
  | false => rw [closeWith_open reason gone]; exact isClosed_ended e

theorem onDecodeError_closes (e : Endpoint) (error : DecodeError) :
    (e.onDecodeError error).endpoint.isClosed = true := by
  have move := onDecodeError_move 0 error e
  generalize e.onDecodeError error = r at move
  cases move with
  | ignored gone => exact gone
  | refused _ _ => exact isClosed_ended _
  | ended _ _ => exact isClosed_ended e

end Endpoint

namespace Connection

/-! ## Taking over reactions -/

section

variable (c : Connection) (r : Reaction)

@[simp] theorem absorb_endpoint : (c.absorb r).endpoint = r.endpoint := rfl
@[simp] theorem absorb_now : (c.absorb r).now = c.now := rfl
@[simp] theorem absorb_pipe : (c.absorb r).pipe = c.pipe := rfl
@[simp] theorem absorb_channel : (c.absorb r).channel = c.channel := rfl
@[simp] theorem absorb_desk : (c.absorb r).desk = c.desk := rfl
@[simp] theorem absorb_limit : (c.absorb r).limit = c.limit := rfl
@[simp] theorem absorb_buffer : (c.absorb r).buffer = c.buffer := rfl
@[simp] theorem absorb_finished : (c.absorb r).finished = c.finished := rfl

@[simp] theorem absorb_still : c.absorb (.still c.endpoint) = c := by
  simp [absorb, Reaction.still]

theorem absorb_andThen (next : Endpoint → Reaction) :
    c.absorb (r.andThen next) = (c.absorb r).absorb (next r.endpoint) := by
  cases h : c.delivering <;> simp [absorb, Reaction.andThen, h, Array.append_assoc]

end

theorem isReading_iff {c : Connection} :
    c.isReading = true ↔ c.endpoint.isClosed = false ∧ c.endpoint.isAwaitingDecision = false ∧
      c.backlog.length < c.channel.capacity := by
  simp [isReading, and_assoc]

theorem isReading_closed {c : Connection} (gone : c.endpoint.isClosed = true) : c.isReading = false := by
  simp [isReading, gone]

/-! ## What is offered to the endpoint -/

/-- The connection once the packet at the front of its buffer has been handed over. -/
def handOver (c : Connection) (p : Packet) (size : Nat) : Connection :=
  { c with buffer := c.buffer.drop size }.absorb (c.endpoint.receive c.now p)

/-- What the endpoint is given, in order, when the buffer is worked off. -/
def offers (c : Connection) : List Input :=
  if c.isReading then
    match h : decode c.limit c.buffer with
    | .incomplete => []
    | .fault error => [.decodeError error]
    | .packet p size =>
      have := drop_shorter h
      .packet p :: offers (c.handOver p size)
  else []
termination_by c.buffer.length
decreasing_by assumption

section

variable {c : Connection}

theorem workOff_shut (shut : c.isReading = false) : c.workOff = c ∧ c.offers = [] := by
  rw [workOff, offers, shut]
  exact ⟨rfl, rfl⟩

theorem workOff_incomplete (reads : c.isReading = true) (h : decode c.limit c.buffer = .incomplete) :
    c.workOff = c ∧ c.offers = [] := by
  rw [workOff, offers, if_pos reads, if_pos reads]
  constructor <;> split <;> simp_all

theorem workOff_fault {error : DecodeError} (reads : c.isReading = true)
    (h : decode c.limit c.buffer = .fault error) :
    c.workOff = c.absorb (c.endpoint.onDecodeError error) ∧ c.offers = [.decodeError error] := by
  rw [workOff, offers, if_pos reads, if_pos reads]
  constructor <;> split <;> simp_all

theorem workOff_packet {p : Packet} {size : Nat} (reads : c.isReading = true)
    (h : decode c.limit c.buffer = .packet p size) :
    c.workOff = (c.handOver p size).workOff ∧ c.offers = .packet p :: (c.handOver p size).offers := by
  rw [workOff, offers, if_pos reads, if_pos reads]
  constructor <;> split <;> simp_all [handOver]

end

/-- Whatever holds of a connection that stops here, and goes over from one that hands over a packet, holds
wherever the buffer is worked off. -/
theorem workOff_induction {motive : Connection → Prop}
    (shut : ∀ c, c.isReading = false → motive c)
    (incomplete : ∀ c, c.isReading = true → decode c.limit c.buffer = .incomplete → motive c)
    (fault : ∀ c error, c.isReading = true → decode c.limit c.buffer = .fault error → motive c)
    (packet : ∀ c p size, c.isReading = true → decode c.limit c.buffer = .packet p size →
      motive (c.handOver p size) → motive c)
    (c : Connection) : motive c := by
  cases reads : c.isReading with
  | false => exact shut c reads
  | true =>
    cases h : decode c.limit c.buffer with
    | incomplete => exact incomplete c reads h
    | fault error => exact fault c error reads h
    | packet p size =>
      have := drop_shorter h
      exact packet c p size reads h (workOff_induction shut incomplete fault packet (c.handOver p size))
termination_by c.buffer.length
decreasing_by assumption

/-- Inputs that all come now. -/
def stamped (c : Connection) (inputs : List Input) : List (Instant × Input) := inputs.map (c.now, ·)

theorem stamped_inputs (c : Connection) (inputs : List Input) : (c.stamped inputs).map Prod.snd = inputs := by
  simp [stamped, Function.comp_def]

/-- **Working off the buffer is a run of the endpoint** on what was found there. Besides, only the buffer
has changed. -/
theorem workOff_eq (c : Connection) :
    c.workOff = { c with buffer := c.workOff.buffer }.absorb (c.endpoint.run (c.stamped c.offers)) := by
  induction c using workOff_induction with
  | shut c reads =>
    obtain ⟨same, none⟩ := workOff_shut reads
    rw [same, none]
    exact (absorb_still c).symm
  | incomplete c reads h =>
    obtain ⟨same, none⟩ := workOff_incomplete reads h
    rw [same, none]
    exact (absorb_still c).symm
  | fault c error reads h =>
    obtain ⟨ends, one⟩ := workOff_fault reads h
    rw [ends, one, stamped, List.map_singleton, Endpoint.run_single]
    rfl
  | packet c p size reads h ih =>
    obtain ⟨same, more⟩ := workOff_packet reads h
    rw [same, more, stamped, List.map_cons, Endpoint.run_cons, absorb_andThen]
    exact ih

/-- The packets among inputs. -/
def packetsIn (inputs : List Input) : List Packet :=
  inputs.filterMap fun
    | .packet p => some p
    | _ => none

/-- **What was found are the packets at the front of the buffer**, in order. -/
theorem workOff_peels (c : Connection) : Peels c.limit c.buffer (packetsIn c.offers) c.workOff.buffer := by
  induction c using workOff_induction with
  | shut c reads =>
    obtain ⟨same, none⟩ := workOff_shut reads
    rw [same, none]
    exact .done c.buffer
  | incomplete c reads h =>
    obtain ⟨same, none⟩ := workOff_incomplete reads h
    rw [same, none]
    exact .done c.buffer
  | fault c error reads h =>
    obtain ⟨ends, one⟩ := workOff_fault reads h
    rw [ends, one]
    exact .done c.buffer
  | packet c p size reads h ih =>
    obtain ⟨same, more⟩ := workOff_packet reads h
    rw [same, more]
    exact .next h ih

/-- **No packet is left** in the buffer as long as packets may be read. -/
theorem workOff_stops (c : Connection) (reads : c.workOff.isReading = true) :
    decode c.workOff.limit c.workOff.buffer = .incomplete := by
  induction c using workOff_induction with
  | shut c shut =>
    rw [(workOff_shut shut).1, shut] at reads
    cases reads
  | incomplete c open' h => rwa [(workOff_incomplete open' h).1]
  | fault c error open' h =>
    rw [(workOff_fault open' h).1, isReading_closed (c.endpoint.onDecodeError_closes error)] at reads
    cases reads
  | packet c p size open' h ih =>
    rw [(workOff_packet open' h).1] at reads ⊢
    exact ih reads

end Connection
end MqttLink
