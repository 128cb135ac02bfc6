import MqttLink.Number.Double
/-!
# Values of settings

What a text or a variable says about settings, without how it says it: scalars,
arrays, and tables whose entries keep the order in which they were written.
-/

namespace MqttLink.Settings

/-- A value. Dates and times are kept as their text. -/
inductive Value where
  /-- A place in an array that has not been filled. No text spells it. -/
  | nothing
  | text (s : String)
  | integer (n : Int)
  | float (x : Number.Double)
  | bool (b : Bool)
  | datetime (s : String)
  | array (items : List Value)
  | table (entries : List (String × Value))
deriving Repr, Inhabited

/-- The entries of a table. -/
abbrev Entries := List (String × Value)

/-! ## Comparing values -/

mutual

/-- Whether two values are the same. -/
def Value.isSame : Value → Value → Bool
  | .nothing, .nothing => true
  | .text s, .text s' => s == s'
  | .integer n, .integer n' => n == n'
  | .float x, .float x' => x == x'
  | .bool b, .bool b' => b == b'
  | .datetime s, .datetime s' => s == s'
  | .array items, .array items' => areSame items items'
  | .table entries, .table entries' => haveSame entries entries'
  | _, _ => false

/-- Whether two lists hold the same values. -/
def areSame : List Value → List Value → Bool
  | [], [] => true
  | v :: rest, v' :: rest' => v.isSame v' && areSame rest rest'
  | _, _ => false

/-- Whether two tables have the same entries in the same order. -/
def haveSame : Entries → Entries → Bool
  | [], [] => true
  | (key, v) :: rest, (key', v') :: rest' => key == key' && v.isSame v' && haveSame rest rest'
  | _, _ => false

end

mutual

theorem Value.isSame_iff : ∀ v v' : Value, v.isSame v' = true ↔ v = v'
  | .nothing, v' => by cases v' <;> simp [Value.isSame]
  | .text s, v' => by cases v' <;> simp [Value.isSame]
  | .integer n, v' => by cases v' <;> simp [Value.isSame]
  | .float x, v' => by cases v' <;> simp [Value.isSame]
  | .bool b, v' => by cases v' <;> simp [Value.isSame]
  | .datetime s, v' => by cases v' <;> simp [Value.isSame]
  | .array items, v' => by cases v' <;> simp [Value.isSame, areSame_iff items]
  | .table entries, v' => by cases v' <;> simp [Value.isSame, haveSame_iff entries]

theorem areSame_iff : ∀ vs vs' : List Value, areSame vs vs' = true ↔ vs = vs'
  | [], vs' => by cases vs' <;> simp [areSame]
  | v :: rest, vs' => by cases vs' <;> simp [areSame, v.isSame_iff, areSame_iff rest]

theorem haveSame_iff : ∀ entries entries' : Entries, haveSame entries entries' = true ↔ entries = entries'
  | [], entries' => by cases entries' <;> simp [haveSame]
  | (key, v) :: rest, entries' => by
    cases entries' <;> simp [haveSame, v.isSame_iff, haveSame_iff rest, Prod.ext_iff]

end

instance : DecidableEq Value := fun v v' => decidable_of_iff _ (v.isSame_iff v')

/-! ## Parts of values -/

/-- The entries of a value; only a table has any. -/
def Value.entries : Value → Entries
  | .table entries => entries
  | _ => []

/-- The items of a value; only an array has any. -/
def Value.items : Value → List Value
  | .array items => items
  | _ => []

/-- The entries with one of them replaced, or added at the end. -/
def setEntry {α : Type} (key : String) (value : α) : List (String × α) → List (String × α)
  | [] => [(key, value)]
  | (k, v) :: rest => if k = key then (k, value) :: rest else (k, v) :: setEntry key value rest

/-- The last entry set under a key is the one that is found there. -/
theorem lookup_setEntry {α : Type} (key other : String) (value : α) (entries : List (String × α)) :
    (setEntry key value entries).lookup other =
      if other = key then some value else entries.lookup other := by
  induction entries with
  | nil =>
    by_cases ho : other = key
    · simp [setEntry, ho]
    · simp [setEntry, List.lookup_cons, ho, beq_eq_false_iff_ne.2 ho]
  | cons entry rest ih =>
    obtain ⟨k, v⟩ := entry
    by_cases hk : k = key
    · subst hk
      by_cases ho : other = k
      · simp [setEntry, ho]
      · simp [setEntry, List.lookup_cons, ho, beq_eq_false_iff_ne.2 ho]
    · by_cases ho : other = k
      · subst ho
        simp [setEntry, hk]
      · simp [setEntry, hk, List.lookup_cons, beq_eq_false_iff_ne.2 ho, ih]

end MqttLink.Settings
