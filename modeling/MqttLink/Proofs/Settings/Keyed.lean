import Mathlib.Data.List.Nodup
import MqttLink.Settings.Toml.Document
/-!
# No key of a document stands twice in a table

Whatever a dialect allows, the tables of a document it reads have their keys only once, those of inline tables
included (`parse?_keyed`): every change of a table under construction sets an entry or replaces one, and passes the
tables on the way to it through (`Draft.update_keyed`). So a table may be laid over another in any order of its keys.
-/

namespace MqttLink

namespace Settings

/-- No key stands twice. -/
def Distinct {α : Type} (entries : List (String × α)) : Prop := (entries.map Prod.fst).Nodup

theorem mem_keys_setEntry {α : Type} {key other : String} {value : α} {entries : List (String × α)} :
    other ∈ (setEntry key value entries).map Prod.fst ↔ other = key ∨ other ∈ entries.map Prod.fst := by
  induction entries with
  | nil => simp [setEntry]
  | cons entry rest ih =>
    obtain ⟨k, v⟩ := entry
    unfold setEntry
    by_cases same : k = key
    · subst same
      simp
    · rw [if_neg same, List.map_cons, List.mem_cons, ih, List.map_cons, List.mem_cons]
      constructor
      · rintro (h | h | h)
        · exact .inr (.inl h)
        · exact .inl h
        · exact .inr (.inr h)
      · rintro (h | h | h)
        · exact .inr (.inl h)
        · exact .inl h
        · exact .inr (.inr h)

theorem mem_setEntry {α : Type} {key : String} {value : α} {entry : String × α} {entries : List (String × α)}
    (inside : entry ∈ setEntry key value entries) : entry.2 = value ∨ entry ∈ entries := by
  induction entries with
  | nil =>
    rw [setEntry, List.mem_singleton] at inside
    exact .inl (by rw [inside])
  | cons first rest ih =>
    obtain ⟨k, v⟩ := first
    unfold setEntry at inside
    split at inside
    · rcases List.mem_cons.1 inside with rfl | inside
      · exact .inl rfl
      · exact .inr (List.mem_cons_of_mem _ inside)
    · rcases List.mem_cons.1 inside with rfl | inside
      · exact .inr (List.mem_cons_self ..)
      · exact (ih inside).imp_right (List.mem_cons_of_mem _)

theorem Distinct.setEntry {α : Type} {entries : List (String × α)} (distinct : Distinct entries) (key : String)
    (value : α) : Distinct (setEntry key value entries) := by
  induction entries with
  | nil => exact List.nodup_singleton key
  | cons entry rest ih =>
    obtain ⟨k, v⟩ := entry
    obtain ⟨new, others⟩ := List.nodup_cons.1 distinct
    unfold Settings.setEntry
    by_cases same : k = key
    · rw [if_pos same]
      exact distinct
    · rw [if_neg same]
      apply List.nodup_cons.2
      refine ⟨?_, ih others⟩
      intro again
      rcases mem_keys_setEntry.1 again with h | h
      · exact same h
      · exact new h

theorem mem_of_lookup {α : Type} {key : String} {value : α} {entries : List (String × α)}
    (found : entries.lookup key = some value) : (key, value) ∈ entries := by
  obtain ⟨before, behind, rfl, -⟩ := List.lookup_eq_some_iff.1 found
  exact List.mem_append_right _ (List.mem_cons_self ..)

/-- A value whose tables have each key only once, outside of arrays. -/
inductive Value.Keyed : Value → Prop where
  | table {entries : Entries} : Distinct entries → (∀ e ∈ entries, e.2.Keyed) → (Value.table entries).Keyed
  | other {v : Value} : (∀ entries, v ≠ .table entries) → v.Keyed

theorem Value.keyed_table {entries : Entries} :
    (Value.table entries).Keyed ↔ Distinct entries ∧ ∀ e ∈ entries, e.2.Keyed := by
  constructor
  · intro keyed
    cases keyed with
    | table distinct inside => exact ⟨distinct, inside⟩
    | other noTable => exact absurd rfl (noTable entries)
  · rintro ⟨distinct, inside⟩
    exact .table distinct inside

end Settings

namespace Toml

open Settings (Value Entries setEntry Distinct mem_setEntry mem_of_lookup)

variable {d : Dialect}

/-! ## Tables under construction -/

/-- A node whose tables have each key only once, outside of arrays. -/
inductive Node.Keyed : Node → Prop where
  | value {v : Value} : v.Keyed → (Node.value v).Keyed
  | table {origin : Origin} {entries : List (String × Node)} :
    Distinct entries → (∀ e ∈ entries, e.2.Keyed) → (Node.table origin entries).Keyed
  | tables {elements : List (List (String × Node))} : (Node.tables elements).Keyed

/-- A table under construction that has each key only once, as have those in it. -/
structure Draft.Keyed (draft : Draft) : Prop where
  distinct : Distinct draft.entries
  inside : ∀ e ∈ draft.entries, e.2.Keyed

theorem Draft.keyed_empty (origin : Origin) : (Draft.mk origin []).Keyed := by
  constructor
  · exact List.nodup_nil
  · intro e inside
    cases inside

theorem Draft.Keyed.set {draft : Draft} (keyed : draft.Keyed) {node : Node} (new : node.Keyed) (key : String) :
    Draft.Keyed { draft with entries := setEntry key node draft.entries } := by
  constructor
  · exact keyed.distinct.setEntry key node
  · intro e inside
    rcases mem_setEntry inside with same | old
    · rw [same]
      exact new
    · exact keyed.inside e old

theorem Draft.Keyed.node {draft : Draft} (keyed : draft.Keyed) : (Node.table draft.origin draft.entries).Keyed :=
  .table keyed.distinct keyed.inside

/-- A change at the end of a path keeps the keys apart on the way there. -/
theorem Draft.update_keyed {change : Draft → Option Draft} {dotted : Bool}
    (kept : ∀ old new, old.Keyed → change old = some new → new.Keyed) {path : List String} {draft result : Draft}
    (keyed : draft.Keyed) (done : draft.update dotted change path = some result) : result.Keyed := by
  induction path generalizing draft result with
  | nil => exact kept draft result keyed done
  | cons key rest ih =>
    unfold Draft.update at done
    dsimp only at done
    split at done
    · obtain ⟨inner, more, same⟩ := Option.bind_eq_some_iff.1 done
      cases same
      exact keyed.set (ih (Draft.keyed_empty _) more).node key
    · cases done
    · cases done
    · obtain ⟨inner, more, same⟩ := Option.bind_eq_some_iff.1 done
      cases same
      -- Arrays of tables are finished as arrays, in which no key is looked for.
      exact keyed.set .tables key
    · rename_i origin entries found
      simp only [Option.ite_none_left_eq_some] at done
      obtain ⟨inner, more, same⟩ := Option.bind_eq_some_iff.1 done.2
      cases same
      have there : Draft.Keyed ⟨origin, entries⟩ := by
        cases keyed.inside _ (mem_of_lookup found) with
        | table distinct inside => exact ⟨distinct, inside⟩
      exact keyed.set (ih there more).node key

theorem Draft.assign_keyed {path : List String} {v : Value} {draft result : Draft} (keyed : draft.Keyed)
    (new : v.Keyed) (done : draft.assign d path v = some result) : result.Keyed := by
  unfold Draft.assign at done
  split at done
  · cases done
  · apply Draft.update_keyed _ keyed done
    intro old new' keyed' step
    simp only [Option.ite_none_left_eq_some] at step
    obtain ⟨-, -, same⟩ := step
    cases same
    exact keyed'.set (.value new) _

theorem Draft.openTable_keyed {path : List String} {draft result : Draft} (keyed : draft.Keyed)
    (done : draft.openTable path = some result) : result.Keyed := by
  unfold Draft.openTable at done
  split at done
  · cases done
  · apply Draft.update_keyed _ keyed done
    intro old new keyed' step
    split at step
    · cases step
      exact keyed'.set (Draft.keyed_empty .spelledOut).node _
    · rename_i entries found
      cases step
      cases keyed'.inside _ (mem_of_lookup found) with
      | table distinct inside => exact keyed'.set (.table distinct inside) _
    · cases step

theorem Draft.openElement_keyed {path : List String} {draft result : Draft} (keyed : draft.Keyed)
    (done : draft.openElement path = some result) : result.Keyed := by
  unfold Draft.openElement at done
  split at done
  · cases done
  · apply Draft.update_keyed _ keyed done
    intro old new keyed' step
    split at step
    · cases step
      exact keyed'.set .tables _
    · cases step
      exact keyed'.set .tables _
    · cases step

/-! ## Finished tables -/

theorem finishEntries_eq (entries : List (String × Node)) :
    finishEntries entries = entries.map fun (key, node) => (key, node.finish) := by
  induction entries with
  | nil => rfl
  | cons entry rest ih => rw [finishEntries, ih, List.map_cons]

theorem distinct_finishEntries {entries : List (String × Node)} (distinct : Distinct entries) :
    Distinct (finishEntries entries) := by
  have same : (finishEntries entries).map Prod.fst = entries.map Prod.fst := by
    rw [finishEntries_eq, List.map_map]
    rfl
  unfold Distinct
  rw [same]
  exact distinct

theorem Node.Keyed.finish {node : Node} (keyed : node.Keyed) : node.finish.Keyed := by
  induction keyed with
  | value keyed => exact keyed
  | table distinct inside ih =>
    apply Value.Keyed.table (distinct_finishEntries distinct)
    intro e finished
    rw [finishEntries_eq] at finished
    obtain ⟨old, was, rfl⟩ := List.mem_map.1 finished
    exact ih old was
  | tables =>
    apply Value.Keyed.other
    intro entries same
    cases same

theorem Draft.Keyed.finish {draft : Draft} (keyed : draft.Keyed) :
    (Value.table (finishEntries draft.entries)).Keyed :=
  keyed.node.finish

/-! ## Values and lines -/

theorem keyed_scalarOf? {cs : List Char} {v : Value} (read : scalarOf? d cs = some v) : v.Keyed := by
  apply Value.Keyed.other
  rintro entries rfl
  unfold scalarOf? at read
  split at read
  · cases read
  · split at read
    · cases read
    · split at read <;> cases read

theorem keyed_bareScalar? {cs rest : List Char} {v : Value} (read : bareScalar? d cs = some (v, rest)) : v.Keyed := by
  have part {run left : List Char} (mapped : (scalarOf? d run).map (·, left) = some (v, rest)) : v.Keyed := by
    obtain ⟨x, found, same⟩ := Option.map_eq_some_iff.1 mapped
    cases same
    exact keyed_scalarOf? found
  unfold bareScalar? at read
  dsimp only at read
  split at read
  · split at read
    · exact part read
    · exact part read
  · exact part read

/-- With so much fuel no value has a key twice in a table. -/
structure ValuesKeyed (d : Dialect) (fuel : Nat) : Prop where
  value : ∀ {depth : Nat} {cs rest : List Char} {v : Value}, value? d fuel depth cs = some (v, rest) → v.Keyed
  pairs : ∀ {depth : Nat} {draft result : Draft} {mayEnd : Bool} {cs rest : List Char}, draft.Keyed →
    pairs? d fuel depth draft mayEnd cs = some (result, rest) → result.Keyed

theorem value?_keyed {fuel : Nat} (ih : ValuesKeyed d fuel) {depth : Nat} {cs rest : List Char} {v : Value}
    (read : value? d (fuel + 1) depth cs = some (v, rest)) : v.Keyed := by
  unfold value? at read
  split at read
  · obtain ⟨found, -, same⟩ := Option.map_eq_some_iff.1 read
    cases same
    exact .other (by simp)
  · obtain ⟨found, -, same⟩ := Option.map_eq_some_iff.1 read
    cases same
    exact .other (by simp)
  · cases depth with
    | zero => cases read
    | succ depth =>
      obtain ⟨found, -, same⟩ := Option.map_eq_some_iff.1 read
      cases same
      exact .other (by simp)
  · cases depth with
    | zero => cases read
    | succ depth =>
      obtain ⟨⟨draft, behind⟩, pairs, same⟩ := Option.bind_eq_some_iff.1 read
      cases same
      exact (ih.pairs (Draft.keyed_empty _) pairs).finish
  · exact keyed_bareScalar? read

theorem pairs?_keyed {fuel : Nat} (ih : ValuesKeyed d fuel) {depth : Nat} {draft result : Draft} {mayEnd : Bool}
    {cs rest : List Char} (keyed : draft.Keyed)
    (read : pairs? d (fuel + 1) depth draft mayEnd cs = some (result, rest)) : result.Keyed := by
  unfold pairs? at read
  split at read
  · cases read
    exact keyed
  · obtain ⟨⟨path, behind⟩, key, more⟩ := Option.bind_eq_some_iff.1 read
    dsimp only at more
    split at more
    · obtain ⟨⟨v, behindValue⟩, value, more⟩ := Option.bind_eq_some_iff.1 more
      obtain ⟨joined, assigned, more⟩ := Option.bind_eq_some_iff.1 more
      have keyed' := Draft.assign_keyed keyed (ih.value value) assigned
      split at more
      · exact ih.pairs keyed' more
      · cases more
        exact keyed'
      · cases more
    · cases more

theorem valuesKeyed (fuel : Nat) : ValuesKeyed d fuel := by
  induction fuel with
  | zero =>
    constructor
    · intro depth cs rest v read
      cases read
    · intro depth draft result mayEnd cs rest _ read
      cases read
  | succ fuel ih => exact ⟨value?_keyed ih, pairs?_keyed ih⟩

theorem line?_keyed {progress result : Progress} {cs rest : List Char} (keyed : progress.root.Keyed)
    (read : line? d progress cs = some (result, rest)) : result.root.Keyed := by
  unfold line? at read
  split at read
  · obtain ⟨⟨path, behind⟩, -, more⟩ := Option.bind_eq_some_iff.1 read
    obtain ⟨root, opened, more⟩ := Option.bind_eq_some_iff.1 more
    obtain ⟨next, -, same⟩ := Option.bind_eq_some_iff.1 more
    cases same
    exact Draft.openElement_keyed keyed opened
  · obtain ⟨⟨path, behind⟩, -, more⟩ := Option.bind_eq_some_iff.1 read
    obtain ⟨root, opened, more⟩ := Option.bind_eq_some_iff.1 more
    obtain ⟨next, -, same⟩ := Option.bind_eq_some_iff.1 more
    cases same
    exact Draft.openTable_keyed keyed opened
  · obtain ⟨⟨path, behind⟩, -, more⟩ := Option.bind_eq_some_iff.1 read
    dsimp only at more
    split at more
    · obtain ⟨⟨v, behindValue⟩, value, more⟩ := Option.bind_eq_some_iff.1 more
      obtain ⟨root, assigned, more⟩ := Option.bind_eq_some_iff.1 more
      obtain ⟨next, -, same⟩ := Option.bind_eq_some_iff.1 more
      cases same
      apply Draft.update_keyed _ keyed assigned
      intro old new keyed' step
      exact Draft.assign_keyed keyed' ((valuesKeyed _).value value) step
    · cases more

theorem lines?_keyed {fuel : Nat} {progress result : Progress} {cs : List Char} (keyed : progress.root.Keyed)
    (read : lines? d fuel progress cs = some result) : result.root.Keyed := by
  induction fuel generalizing progress cs with
  | zero => cases read
  | succ fuel ih =>
    unfold lines? at read
    split at read
    · cases read
      exact keyed
    · obtain ⟨⟨progress', rest⟩, line, more⟩ := Option.bind_eq_some_iff.1 read
      exact ih (line?_keyed keyed line) more

/-- The tables of a document have each key only once. -/
theorem parse?_keyed {text : String} {entries : Entries} (read : parse? d text = some entries) :
    (Value.table entries).Keyed := by
  unfold parse? at read
  obtain ⟨progress, lines, same⟩ := Option.map_eq_some_iff.1 read
  cases same
  exact (lines?_keyed (Draft.keyed_empty _) lines).finish

end Toml
end MqttLink
