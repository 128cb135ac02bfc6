import MqttLink.Settings.Toml.Text
import MqttLink.Settings.Toml.Scalar
/-!
# TOML documents

A document is a list of assignments, with headers that say which table the
following assignments belong to. A table may be spelled out once: by a header, by
an inline table, or by dotted keys. Tables that a header or a dotted key only
passes through come into being on the way, and a header may still spell out
those that another header has passed through.
-/

namespace MqttLink.Toml

open Settings (Value Entries setEntry)

/-! ## Tables under construction -/

/-- How a table has come into being. -/
inductive Origin where
  /-- Spelled out by a header. -/
  | spelledOut
  /-- Passed through by a header. -/
  | passed
  /-- Made by dotted keys. -/
  | dotted
deriving DecidableEq, Repr

/-- What stands under a key of a document that is being read. -/
inductive Node where
  /-- A value, which cannot be added to. -/
  | value (v : Value)
  | table (origin : Origin) (entries : List (String × Node))
  /-- The tables of an array of tables, the latest first. -/
  | tables (elements : List (List (String × Node)))

/-- A table that is being read. -/
structure Draft where
  origin : Origin
  entries : List (String × Node)

mutual

/-- The finished value of a node. -/
def Node.finish : Node → Value
  | .value v => v
  | .table _ entries => .table (finishEntries entries)
  | .tables elements => .array (finishTables elements).reverse

/-- The finished entries of a table. -/
def finishEntries : List (String × Node) → List (String × Value)
  | [] => []
  | (key, node) :: rest => (key, node.finish) :: finishEntries rest

/-- The finished tables of an array of tables. -/
def finishTables : List (List (String × Node)) → List Value
  | [] => []
  | entries :: rest => .table (finishEntries entries) :: finishTables rest

end

/-- Changes the table at the end of a path, making those on the way that are not
there yet. Dotted keys must not pass through a table that is spelled out. -/
def Draft.update (dotted : Bool) (change : Draft → Option Draft) :
    List String → Draft → Option Draft
  | [], draft => change draft
  | key :: rest, draft =>
    let put (node : Node) : Draft := { draft with entries := setEntry key node draft.entries }
    match draft.entries.lookup key with
    | none => do
      let inner ← update dotted change rest ⟨if dotted then .dotted else .passed, []⟩
      return put (.table inner.origin inner.entries)
    | some (.value _) => none
    | some (.tables []) => none
    | some (.tables (latest :: earlier)) => do
      let inner ← update dotted change rest ⟨.spelledOut, latest⟩
      return put (.tables (inner.entries :: earlier))
    | some (.table origin entries) => do
      if dotted && origin == .spelledOut then none
      else
        let inner ← update dotted change rest ⟨origin, entries⟩
        return put (.table inner.origin inner.entries)

/-- Adds an assignment to a table. A dotted key may only add to a table that dotted keys
have made or, if the dialect allows it, one that headers have only passed through;
and no key is assigned twice. -/
def Draft.assign (d : Dialect) (path : List String) (value : Value) (draft : Draft) :
    Option Draft :=
  match path.reverse with
  | [] => none
  | name :: front =>
    draft.update true (fun target =>
      let joins := target.origin == .dotted || (target.origin == .passed && d.joinsPassed)
      if !front.isEmpty && !joins then none
      else if (target.entries.lookup name).isSome then none
      else some { target with entries := setEntry name (.value value) target.entries })
      front.reverse

/-- Opens the table of a header: a new one, or one that was only passed through. -/
def Draft.openTable (path : List String) (root : Draft) : Option Draft :=
  match path.reverse with
  | [] => none
  | name :: front =>
    root.update false (fun target =>
      match target.entries.lookup name with
      | none => some { target with entries := setEntry name (.table .spelledOut []) target.entries }
      | some (.table .passed entries) =>
        some { target with entries := setEntry name (.table .spelledOut entries) target.entries }
      | some _ => none)
      front.reverse

/-- Opens one more table of an array of tables. -/
def Draft.openElement (path : List String) (root : Draft) : Option Draft :=
  match path.reverse with
  | [] => none
  | name :: front =>
    root.update false (fun target =>
      match target.entries.lookup name with
      | none => some { target with entries := setEntry name (.tables [[]]) target.entries }
      | some (.tables elements) =>
        some { target with entries := setEntry name (.tables ([] :: elements)) target.entries }
      | some _ => none)
      front.reverse

/-! ## Values -/

/-- The text behind what may stand between the parts of an inline table. -/
def skipInline (d : Dialect) (cs : List Char) : List Char :=
  if d.freeInlineTables then skipLines (cs.length + 1) cs else skipBlanks cs

mutual

/-- A value, and what follows it. -/
def value? (d : Dialect) : (fuel : Nat) → (depth : Nat) → List Char → Option (Value × List Char)
  | 0, _, _ => none
  | fuel + 1, depth, cs =>
    match cs with
    | '"' :: _ | '\'' :: _ => (string? d cs).map fun (s, rest) => (.text s, rest)
    | '[' :: rest =>
      match depth with
      | 0 => none
      | depth + 1 => (items? d fuel depth rest).map fun (items, rest) => (.array items, rest)
    | '{' :: rest =>
      match depth with
      | 0 => none
      | depth + 1 => do
        let (draft, rest) ← pairs? d fuel depth ⟨.spelledOut, []⟩ true (skipInline d rest)
        return (.table (finishEntries draft.entries), rest)
    | _ => bareScalar? d cs

/-- The items of an array and its closing bracket. A comma may follow the last. -/
def items? (d : Dialect) : (fuel : Nat) → (depth : Nat) → List Char →
    Option (List Value × List Char)
  | 0, _, _ => none
  | fuel + 1, depth, cs =>
    let start := skipLines (cs.length + 1) cs
    match start with
    | ']' :: rest => some ([], rest)
    | _ => do
      let (item, rest) ← value? d fuel depth start
      match skipLines (rest.length + 1) rest with
      | ',' :: rest => do
        let (more, rest) ← items? d fuel depth rest
        return (item :: more, rest)
      | ']' :: rest => return ([item], rest)
      | _ => none

/-- The assignments of an inline table and its closing brace. A comma may follow the
last if the dialect allows it. -/
def pairs? (d : Dialect) : (fuel : Nat) → (depth : Nat) → Draft → (mayEnd : Bool) → List Char →
    Option (Draft × List Char)
  | 0, _, _, _, _ => none
  | fuel + 1, depth, draft, mayEnd, cs =>
    match mayEnd, cs with
    | true, '}' :: rest => some (draft, rest)
    | _, _ => do
      let (path, rest) ← key? d cs
      match skipInline d rest with
      | '=' :: rest => do
        let (value, rest) ← value? d fuel depth (skipInline d rest)
        let draft ← draft.assign d path value
        match skipInline d rest with
        | ',' :: rest => pairs? d fuel depth draft d.freeInlineTables (skipInline d rest)
        | '}' :: rest => return (draft, rest)
        | _ => none
      | _ => none

end

/-! ## Lines -/

/-- A document as far as it has been read. -/
structure Progress where
  root : Draft
  /-- The path of the header that the following assignments belong to. -/
  header : List String

/-- A header behind its opening bracket. -/
def header? (d : Dialect) (cs : List Char) : Option (List String × List Char) := do
  match ← key? d cs with
  | (path, ']' :: rest) => return (path, rest)
  | _ => none

/-- The header of an array of tables behind its opening brackets. -/
def elementHeader? (d : Dialect) (cs : List Char) : Option (List String × List Char) := do
  match ← header? d cs with
  | (path, ']' :: rest) => return (path, rest)
  | _ => none

/-- One line that holds something. -/
def line? (d : Dialect) (progress : Progress) (cs : List Char) : Option (Progress × List Char) :=
  match cs with
  | '[' :: '[' :: rest => do
    let (path, rest) ← elementHeader? d rest
    return (⟨← progress.root.openElement path, path⟩, ← nextLine? rest)
  | '[' :: rest => do
    let (path, rest) ← header? d rest
    return (⟨← progress.root.openTable path, path⟩, ← nextLine? rest)
  | _ => do
    let (path, rest) ← key? d cs
    match rest with
    | '=' :: rest => do
      let (value, rest) ← value? d (2 * rest.length + 2) d.maxDepth (skipBlanks rest)
      let root ← progress.root.update false (Draft.assign d path value) progress.header
      return ({ progress with root }, ← nextLine? rest)
    | _ => none

/-- All lines of a document. -/
def lines? (d : Dialect) : (fuel : Nat) → Progress → List Char → Option Progress
  | 0, _, _ => none
  | fuel + 1, progress, cs =>
    match skipLines (cs.length + 1) cs with
    | [] => some progress
    | start => do
      let (progress, rest) ← line? d progress start
      lines? d fuel progress rest

/-- The entries of a document in a dialect. A byte order mark may precede it. -/
def parse? (d : Dialect) (text : String) : Option Entries :=
  let cs :=
    match text.toList with
    | '\ufeff' :: rest => rest
    | cs => cs
  (lines? d (cs.length + 1) ⟨⟨.spelledOut, []⟩, []⟩ cs).map fun p => finishEntries p.root.entries

end MqttLink.Toml
