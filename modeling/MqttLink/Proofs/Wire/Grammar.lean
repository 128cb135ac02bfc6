import MqttLink.Proofs.Wire.Layout
import MqttLink.Proofs.Wire.Shortest
/-!
# What a reader accepts

`Accepts r bytes valid` says that the reader `r` takes nothing but what stands in front of it as the
layout `bytes x` of the value `x` that it gives, and that this value is valid. It is the converse of
`Reads`: nothing is accepted beyond the layout, and nothing that was there is forgotten.

A reader that is a sequence of readers is taken apart by `bind_eq_ok`, field by field.
-/

namespace MqttLink.Wire

variable {α β : Type}

/-! ## Sequences -/

theorem chain_eq_ok {x : Except DecodeError α} {next : α → Except DecodeError β} {y : β} :
    x >>= next = .ok y ↔ ∃ a, x = .ok a ∧ next a = .ok y := by
  cases x <;> simp [bind, Except.bind]

theorem bind_eq_ok {r : Reader α} {next : α → Reader β} {y : β} {body rest : Bytes} :
    (r >>= next) body = .ok (y, rest) ↔ ∃ x mid, r body = .ok (x, mid) ∧ next x mid = .ok (y, rest) := by
  have step : (r >>= next) body = r body >>= fun (a, rest) => next a rest := rfl
  rw [step, chain_eq_ok]
  constructor
  · rintro ⟨⟨x, mid⟩, taken, given⟩
    exact ⟨x, mid, taken, given⟩
  · rintro ⟨x, mid, taken, given⟩
    exact ⟨(x, mid), taken, given⟩

theorem pure_eq_ok {x y : α} {body rest : Bytes} :
    (pure x : Reader α) body = .ok (y, rest) ↔ x = y ∧ body = rest := by
  change Except.ok (x, body) = .ok (y, rest) ↔ _
  simp

theorem require_eq_ok {ok : Bool} {error : DecodeError} {u : Unit} {body rest : Bytes} :
    require ok error body = .ok (u, rest) ↔ ok = true ∧ body = rest := by
  cases ok <;> simp [require]

theorem need_eq_ok {found : Option α} {error : DecodeError} {x : α} {body rest : Bytes} :
    need found error body = .ok (x, rest) ↔ found = some x ∧ body = rest := by
  cases found <;> simp [need]

theorem lift_eq_ok {result : Except DecodeError α} {x : α} {body rest : Bytes} :
    (StateT.lift result : Reader α) body = .ok (x, rest) ↔ result = .ok x ∧ body = rest := by
  cases result with
  | error e => simp [StateT.lift, bind, Except.bind]
  | ok a => simp [StateT.lift, bind, Except.bind, pure, Except.pure]

theorem map_eq_ok {result : Except DecodeError α} {make : α → β} {y : β} :
    result.map make = .ok y ↔ ∃ x, result = .ok x ∧ make x = y := by
  cases result <;> simp [Except.map]

theorem readBody_eq_ok {r : Reader α} {body : Bytes} {x : α} :
    readBody r body = .ok x ↔ ∃ rest, r body = .ok (x, rest) := by
  rw [readBody]
  split
  · rename_i y rest h
    simp [h]
  · rename_i e h
    simp [h]

/-! ## Readers of one value -/

/-- A reader that accepts a value only as it is laid out, and only if it is valid. -/
def Accepts (r : Reader α) (bytes : α → Bytes) (valid : α → Prop) : Prop :=
  ∀ {body rest : Bytes} {x : α}, r body = .ok (x, rest) → body = bytes x ++ rest ∧ valid x

/-- A field that may be left out. -/
theorem accepts_optional {r : Reader α} {bytes : α → Bytes} {valid : α → Prop} (h : Accepts r bytes valid)
    {present : Bool} {body rest : Bytes} {x : Option α} (read : optional present r body = .ok (x, rest)) :
    body = x.elim [] bytes ++ rest ∧ x.isSome = present ∧ ∀ a, x = some a → valid a := by
  cases present with
  | false =>
    obtain ⟨rfl, rfl⟩ := pure_eq_ok.1 read
    exact ⟨rfl, rfl, by simp⟩
  | true =>
    obtain ⟨a, mid, taken, given⟩ := bind_eq_ok.1 read
    obtain ⟨rfl, rfl⟩ := pure_eq_ok.1 given
    obtain ⟨split, ok⟩ := h taken
    refine ⟨split, rfl, ?_⟩
    rintro _ ⟨⟩
    exact ok

/-- Items one after the other are laid out one after the other. -/
theorem accepts_many {item : Reader α} {bytes : α → Bytes} {valid : α → Prop} (h : Accepts item bytes valid)
    (shorter : ∀ {body x rest}, item body = .ok (x, rest) → rest.length < body.length)
    {found : Array α} {body : Bytes} {l : List α} (read : Field.many item shorter found body = .ok l) :
    ∃ more, l = found.toList ++ more ∧ body = more.flatMap bytes ∧ ∀ a ∈ more, valid a := by
  induction body using WellFounded.induction (measure List.length).wf generalizing found with
  | _ body ih =>
    cases body with
    | nil =>
      rw [Field.many] at read
      cases read
      exact ⟨[], (List.append_nil _).symm, rfl, List.forall_mem_nil _⟩
    | cons b tail =>
      rw [Field.many] at read
      split at read
      · cases read
      · rename_i x rest taken
        obtain ⟨more, rfl, rfl, ok⟩ := ih rest (shorter taken) read
        obtain ⟨split, valid⟩ := h taken
        refine ⟨x :: more, by simp, split, ?_⟩
        intro a ha
        rcases List.mem_cons.1 ha with rfl | ha
        · exact valid
        · exact ok a ha

namespace Field

theorem accepts_byte : Accepts byte (fun b => [b]) fun _ => True := by
  intro body rest x h
  cases body with
  | nil => cases h
  | cons b tail => cases h; exact ⟨rfl, trivial⟩

theorem accepts_word : Accepts word wordBytes fun _ => True := by
  intro body rest n h
  match body, h with
  | high :: low :: tail, h =>
    cases h
    refine ⟨?_, trivial⟩
    have hHigh := high.toNat_lt
    have hLow := low.toNat_lt
    have whole : (UInt16.ofNat (high.toNat * 256 + low.toNat)).toNat = high.toNat * 256 + low.toNat := by
      rw [UInt16.toNat_ofNat', Nat.mod_eq_of_lt (by omega)]
    have first : (high.toNat * 256 + low.toNat) / 256 = high.toNat := by omega
    have second : (high.toNat * 256 + low.toNat) % 256 = low.toNat := by omega
    rw [wordBytes, whole, first, second, UInt8.ofNat_toNat, UInt8.ofNat_toNat]
    rfl

theorem accepts_block : Accepts block blockBytes fun bytes => bytes.length ≤ Topic.maxBytes := by
  intro body rest bytes h
  rw [block] at h
  split at h
  · cases h
  · rename_i n mid taken
    split at h
    · rename_i found split
      cases h
      obtain ⟨rfl, -⟩ := accepts_word taken
      obtain ⟨rfl, length⟩ := splitAt?_eq_some_iff.1 split
      have same : UInt16.ofNat bytes.length = n := by rw [length, UInt16.ofNat_toNat]
      refine ⟨by rw [blockBytes, same, List.append_assoc], ?_⟩
      have small := n.toNat_lt
      change bytes.length ≤ 65535
      omega
    · cases h

/-- Bytes that spell a text are the bytes of that text. -/
theorem encodeUtf8_of_decodeUtf8 {bytes : Bytes} {s : String} (h : decodeUtf8 bytes = some s) :
    encodeUtf8 s = bytes := by
  rw [decodeUtf8, String.fromUTF8?] at h
  split at h
  · cases h
    rfl
  · cases h

theorem accepts_text : Accepts text textBytes Carries := by
  intro body rest s h
  rw [text] at h
  split at h
  · cases h
  · rename_i bytes mid taken
    split at h
    · cases h
    · rename_i spelt decoded
      split at h
      · cases h
      · rename_i clean
        cases h
        obtain ⟨split, short⟩ := accepts_block taken
        have same := encodeUtf8_of_decodeUtf8 decoded
        refine ⟨by rw [textBytes, same, split], ?_, Bool.eq_false_iff.2 clean⟩
        rw [← length_encodeUtf8, same]
        exact short

theorem remainder_eq_ok {body bytes rest : Bytes} :
    remainder body = .ok (bytes, rest) ↔ body = bytes ∧ rest = [] := by
  rw [remainder, Except.ok.injEq, Prod.mk.injEq]
  exact and_congr_right fun _ => eq_comm

end Field

/-! ## Frames -/

/-- **A frame is found only where it stands**: a head, a length field and as many bytes as that says. -/
theorem read_eq_frame {limit size : Nat} {buffer : Bytes} {f : Frame}
    (h : Frame.read limit buffer = .frame f size) :
    ∃ field rest, buffer = f.head :: (field ++ f.body) ++ rest ∧ Length.Spells field f.body.length ∧
      f.body.length ≤ limit ∧ size = 1 + field.length + f.body.length := by
  cases buffer with
  | nil => cases h
  | cons head tail =>
    rw [Frame.read] at h
    split at h
    · cases h
    · cases h
    · rename_i v width length
      split at h
      · cases h
      · rename_i within
        split at h
        · cases h
        · rename_i body rest split
          cases h
          obtain ⟨field, after, rfl, rfl, spells⟩ := Length.read_value length
          rw [List.drop_left] at split
          obtain ⟨rfl, whole⟩ := splitAt?_eq_some_iff.1 split
          refine ⟨field, rest, by simp, whole ▸ spells, whole ▸ Nat.le_of_not_gt within, by rw [whole]⟩

end MqttLink.Wire
