import MqttLink.Settings.Toml.Text
import MqttLink.Settings.Value
import MqttLink.Number.Decimal
/-!
# Places of settings

A name leads to a place among values step by step: `server.bind` to an entry of an
entry, `server[1]` to an item of an array. To put a value at a place is to make
what is missing on the way there, and to take away what is in the way.
-/

namespace MqttLink.Settings

/-- One step on the way to a place. -/
inductive Step where
  /-- To the entry under a key. -/
  | key (name : String)
  /-- To the item at a position, which counts from the end if it is negative. -/
  | item (position : Int)
deriving DecidableEq, Repr

/-- The way to a place. -/
abbrev Path := List Step

/-! ## Names -/

/-- A step to an entry at the front of a name. -/
def keyStep? (cs : List Char) : Option (Step × List Char) :=
  let name := cs.takeWhile Toml.isBareKey
  if name.isEmpty then none else some (.key (String.ofList name), cs.dropWhile Toml.isBareKey)

/-- A step to an item behind its opening bracket. Blanks are free inside the
brackets, and the position is a number of 64 bits. -/
def itemStep? (cs : List Char) : Option (Step × List Char) := do
  let cs := Toml.skipBlanks cs
  let sign := cs.take (if cs.head? == some '-' then 1 else 0)
  let digits := (cs.drop sign.length).takeWhile Number.isDecimal
  let position ← Number.toInt64? (String.ofList (sign ++ digits))
  match Toml.skipBlanks (cs.drop (sign.length + digits.length)) with
  | ']' :: rest => return (.item position, rest)
  | _ => none

/-- The steps behind the first, up to the end of a name. -/
def steps? : (fuel : Nat) → List Char → Option Path
  | _, [] => some []
  | 0, _ => none
  | fuel + 1, c :: rest => do
    let (step, rest) ←
      if c = '.' then keyStep? rest else if c = '[' then itemStep? rest else none
    let steps ← steps? fuel rest
    return step :: steps

/-- The path that a name spells: a key, and then keys behind points and positions
in brackets. Any other name is a single key. -/
def Path.ofName (name : String) : Path :=
  let spelled : Option Path := do
    let (step, rest) ← keyStep? name.toList
    let steps ← steps? rest.length rest
    return step :: steps
  spelled.getD [.key name]

/-! ## Values laid over values -/

/-- What stands under a key. -/
def under (key : String) (entries : Entries) : Value := (entries.lookup key).getD .nothing

mutual

/-- A value laid over another: tables are joined, and any other value replaces what
was there. -/
def overlay : Value → Value → Value
  | .table entries, below => .table (overlayEntries entries below.entries)
  | v, _ => v

/-- Entries laid over those of another table. -/
def overlayEntries : List (String × Value) → Entries → Entries
  | [], below => below
  | (key, v) :: rest, below =>
    overlayEntries rest (setEntry key (overlay v (under key below)) below)

end

/-- The items with room made at a position, and the position counted from the front.
Unfilled places are added behind the items, or in front of them. -/
def makeRoom (position : Int) (items : List Value) : List Value × Nat :=
  if 0 ≤ position then
    let index := position.toNat
    (items ++ List.replicate (index + 1 - items.length) .nothing, index)
  else
    let missing := (-position).toNat - items.length
    (List.replicate missing .nothing ++ items, items.length - (-position).toNat)

/-- A value laid over what stands at the end of a path. What is in the way becomes a
table or an array, as the next step needs it. -/
def overlayAt (v : Value) : Path → Value → Value
  | [], below => overlay v below
  | .key name :: rest, below =>
    .table (setEntry name (overlayAt v rest (under name below.entries)) below.entries)
  | .item position :: rest, below =>
    let (items, index) := makeRoom position below.items
    .array (items.modify index (overlayAt v rest))

/-- Room is made: there is an item at the position. -/
theorem lt_length_makeRoom (position : Int) (items : List Value) :
    (makeRoom position items).2 < (makeRoom position items).1.length := by
  unfold makeRoom
  split <;> simp only [List.length_append, List.length_replicate] <;> omega

end MqttLink.Settings
