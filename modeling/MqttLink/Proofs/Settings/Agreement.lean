import MqttLink.Settings.Load
import MqttLink.Proofs.Settings.Substitution
import MqttLink.Proofs.Settings.Dialects
import MqttLink.Proofs.Settings.Layers
/-!
# A text on its own and a file say the same settings

Settings are read from a text in version 1.0 of TOML and exactly, and from a file in version 1.1, loosely, over the
defaults and under the variables. A text that both versions read alike says the same either way (`load_of_parse`):
nothing is put into it, the freer version reads it as the same entries, the defaults below it change nothing, and its
values are taken loosely as they are taken exactly. Where the two versions differ the settings do
(`parse_apart_from_load`). Either way settings that are given out make sense (`flaw?_eq_none_iff`).
-/

namespace MqttLink.Settings

/-! ## Settings that make sense -/

/-- Settings with which a server can start. -/
structure Sound (s : Settings) : Prop where
  instances : 1 ≤ s.server.instances
  packetSize : 1 ≤ s.endpoint.maxPacketSize ∧ s.endpoint.maxPacketSize ≤ 268435455
  capacities : 1 ≤ s.endpoint.eventCapacity ∧ 1 ≤ s.endpoint.commandCapacity
  encrypted : s.server.tlsBind.isSome = true → ∃ tls, s.server.tls = some tls ∧ tls.cert ≠ "" ∧ tls.key ≠ ""

theorem Endpoint.flaw?_eq_none_iff {e : Endpoint} :
    e.flaw? = none ↔ (1 ≤ e.maxPacketSize ∧ e.maxPacketSize ≤ 268435455) ∧ 1 ≤ e.eventCapacity ∧
      1 ≤ e.commandCapacity := by
  unfold Endpoint.flaw? Wire.Length.maxLength
  split
  · simp only [reduceCtorEq, false_iff]
    omega
  · split
    · simp only [reduceCtorEq, false_iff]
      omega
    · simp only [true_iff]
      omega

theorem Server.tlsFlaw?_eq_none_iff {s : Server} :
    s.tlsFlaw? = none ↔
      (s.tlsBind.isSome = true → ∃ tls, s.tls = some tls ∧ tls.cert ≠ "" ∧ tls.key ≠ "") := by
  unfold Server.tlsFlaw?
  cases s.tlsBind with
  | none => simp
  | some address =>
    cases s.tls with
    | none => simp
    | some tls =>
      by_cases noCert : tls.cert = ""
      · simp [noCert]
      · by_cases noKey : tls.key = ""
        · simp [noCert, noKey]
        · simp [noCert, noKey]

/-- The check finds nothing wrong exactly with settings that make sense. -/
theorem flaw?_eq_none_iff {s : Settings} : s.flaw? = none ↔ s.Sound := by
  have order : s.flaw? = none ↔
      1 ≤ s.server.instances ∧ s.endpoint.flaw? = none ∧ s.server.tlsFlaw? = none := by
    unfold flaw?
    by_cases none' : s.server.instances = 0
    · simp [none']
    · rw [if_neg none', Option.or_eq_none_iff]
      constructor
      · rintro ⟨limits, encryption⟩
        exact ⟨by omega, limits, encryption⟩
      · rintro ⟨-, limits, encryption⟩
        exact ⟨limits, encryption⟩
  rw [order, Endpoint.flaw?_eq_none_iff, Server.tlsFlaw?_eq_none_iff]
  constructor
  · rintro ⟨instances, ⟨packetSize, capacities⟩, encrypted⟩
    exact ⟨instances, packetSize, capacities, encrypted⟩
  · rintro ⟨instances, packetSize, capacities, encrypted⟩
    exact ⟨instances, ⟨packetSize, capacities⟩, encrypted⟩

theorem sound_of_checked {s c : Settings} (out : checked s = .ok c) : c.Sound := by
  unfold checked at out
  split at out
  · cases out
  · rename_i fine
    cases out
    exact flaw?_eq_none_iff.1 fine

theorem sound_of_parse {text : String} {c : Settings} (out : parse text = .ok c) : c.Sound := by
  unfold parse at out
  split at out
  · exact sound_of_checked out
  · cases out

theorem sound_of_load {file : Option String} {environment : Environment} {c : Settings}
    (out : load file environment = .ok c) : c.Sound := by
  unfold load at out
  dsimp only at out
  split at out
  · exact sound_of_checked out
  · cases out

/-! ## Layers with nothing on top -/

/-- Nothing is put into a text without placeholders. -/
theorem expanded_literal {text : String} (literal : Placeholder.IsLiteral text.toList) (environment : Environment) :
    expanded environment text = text := by
  have noMore : ([] : List Char).head? ≠ some '{' := by simp
  have kept := Placeholder.expand_literal environment.get? literal noMore
  have nothing : Placeholder.expand environment.get? [] = [] := by
    simp [Placeholder.expand, Placeholder.match?]
  unfold expanded Placeholder.substitute
  rw [List.append_nil, nothing, List.append_nil] at kept
  rw [kept, String.ofList_toList]

/-- No variable overrides a setting. -/
def Environment.Unset (environment : Environment) : Prop := ∀ v ∈ environment, overrideName? v.1 = none

theorem overrides_unset {environment : Environment} (unset : environment.Unset) : environment.overrides = [] := by
  apply List.filterMap_eq_nil_iff.2
  intro v inside
  simp [unset v inside]

/-- Where no variable overrides a setting, bare keys are laid over the defaults. -/
theorem layers_unset {entries : Entries} {environment : Environment}
    (bare : ∀ e ∈ entries, ∀ c ∈ e.1.toList, Toml.isBareKey c = true) (unset : environment.Unset) :
    layers entries environment = overlayEntries entries defaults := by
  unfold layers
  rw [overrides_unset unset, layer_bare bare]
  rfl

/-! ## Agreement -/

/-- A text that both versions take for the same entries. -/
structure Portable (text : String) (entries : Entries) : Prop where
  /-- No placeholder begins in it. -/
  literal : Placeholder.IsLiteral text.toList
  /-- It is read with the ends of lines in strings kept and without numbers too far below zero. -/
  said : Toml.parse? .common text = some entries
  /-- Neither of the two matters for the settings that it says in version 1.0. -/
  alike : (Toml.parse? .v1_0 text).bind (read .exact) = read .exact entries
  /-- Its outermost keys need no quotes. -/
  bare : ∀ e ∈ entries, ∀ c ∈ e.1.toList, Toml.isBareKey c = true
  undated : Undated entries

/-- A text that is read in version 1.0 is portable if nothing stands in it that the two versions settle
differently. -/
theorem portable_of_plain {text : String} {entries : Entries} (literal : Placeholder.IsLiteral text.toList)
    (plain : Toml.Plain text.toList) (read : Toml.parse? .v1_0 text = some entries)
    (bare : ∀ e ∈ entries, ∀ c ∈ e.1.toList, Toml.isBareKey c = true) (undated : Undated entries) :
    Portable text entries where
  literal := literal
  said := Toml.parse?_within plain.within read
  alike := by rw [read, Option.bind_some]
  bare := bare
  undated := undated

/-- A file with such a text holds its entries, whatever the environment is. -/
theorem Portable.file {text : String} {entries : Entries} (portable : Portable text entries)
    (environment : Environment) : Toml.parse? .v1_1 (expanded environment text) = some entries := by
  rw [expanded_literal portable.literal]
  exact Toml.parse?_within (Toml.Dialect.common_within _) portable.said

/-- What the entries say exactly, they say in the layers. -/
theorem Portable.layered {text : String} {entries : Entries} (portable : Portable text entries)
    {environment : Environment} (unset : environment.Unset) {s : Settings} (exactly : read .exact entries = some s) :
    read .loose (layers entries environment) = some s := by
  rw [layers_unset portable.bare unset, read_over_defaults (Toml.parse?_keyed portable.said)]
  exact read_loose portable.undated exactly

/-- **A file says what its text says on its own.** Settings that are read from a text are also read from a file
with that text, the same in every field, whichever sections and keys are there, as long as the two versions take the
text alike and no variable overrides a setting. Settings that are given out either way make sense. -/
theorem load_of_parse :
    (∀ text entries environment c, Portable text entries → environment.Unset →
      parse text = .ok c → load (some text) environment = .ok c) ∧
    (∀ text c, parse text = .ok c → c.Sound) ∧
    (∀ file environment c, load file environment = .ok c → c.Sound) := by
  refine ⟨?_, ?_, ?_⟩
  · intro text entries environment c portable unset out
    unfold parse at out
    rw [portable.alike] at out
    split at out
    · rename_i s exactly
      unfold load
      dsimp only
      rw [portable.file, Option.bind_some, portable.layered unset exactly]
      exact out
    · cases out
  · intro text c out
    exact sound_of_parse out
  · intro file environment c out
    exact sound_of_load out

/-- Sections inside one another, an unknown key, and lines that end in two characters. -/
def encryption : String :=
  "x = 1\r\n[log]\r\nlevel = \"debug\"\r\n[server.tls]\r\ncert = \"c\"\r\nkey = \"k\"\r\n"

/-- What it says, laid out. -/
def encryptionEntries : Entries :=
  [("x", .integer 1), ("log", .table [("level", .text "debug")]),
    ("server", .table [("tls", .table [("cert", .text "c"), ("key", .text "k")])])]

/-- The settings that it says; the rest are the defaults. -/
def encryptionSettings : Settings :=
  { default with log := ⟨"debug"⟩, server := { Server.default with tls := some ⟨"c", "k", none, false⟩ } }

theorem load_encryption :
    Portable encryption encryptionEntries ∧ Environment.Unset [("PATH", "/bin")] ∧
    parse encryption = .ok encryptionSettings ∧
    load (some encryption) [("PATH", "/bin")] = .ok encryptionSettings := by
  have portable : Portable encryption encryptionEntries := by
    refine portable_of_plain ?_ ⟨.inr ?_, ?_⟩ (by decide +kernel) ?_ ?_
    · simp [Placeholder.IsLiteral, encryption, List.infix_cons_iff]
    · simp [encryption, List.infix_cons_iff]
    · intro run inside
      have minus : '-' ∉ encryption.toList := by decide +kernel
      exact absurd (inside.subset List.mem_cons_self) minus
    · simp [encryptionEntries, Toml.isBareKey]
    · simp [Undated, encryptionEntries, List.lookup_cons]
  have unset : Environment.Unset [("PATH", "/bin")] := by
    have other : overrideName? "PATH" = none := by decide +kernel
    intro v inside
    rw [List.mem_singleton.1 inside]
    exact other
  have alone : parse encryption = .ok encryptionSettings := by decide +kernel
  exact ⟨portable, unset, alone, load_of_parse.1 _ _ _ _ portable unset alone⟩

/-- A date is an empty section on its own and none in a file; the end of a line in a string, written as two characters,
is one or both of them; a number too far below zero is infinite or refused. -/
theorem parse_apart_from_load :
    (Placeholder.IsLiteral "log = 1979-05-27\n".toList ∧
      Toml.parse? .v1_0 "log = 1979-05-27\n" = some [("log", .datetime "1979-05-27")] ∧
      parse "log = 1979-05-27\n" = .ok default ∧
      load (some "log = 1979-05-27\n") [] = .error .layers) ∧
    (Placeholder.IsLiteral "[log]\nlevel = '''a\r\nb'''\n".toList ∧
      Toml.parse? .v1_0 "[log]\nlevel = '''a\r\nb'''\n" = some [("log", .table [("level", .text "a\nb")])] ∧
      parse "[log]\nlevel = '''a\r\nb'''\n" = .ok { default with log := ⟨"a\nb"⟩ } ∧
      load (some "[log]\nlevel = '''a\r\nb'''\n") [] = .ok { default with log := ⟨"a\r\nb"⟩ }) ∧
    (Placeholder.IsLiteral "x = -1e400\n".toList ∧
      Toml.parse? .v1_0 "x = -1e400\n" = some [("x", .float (.infinite true))] ∧
      parse "x = -1e400\n" = .ok default ∧
      load (some "x = -1e400\n") [] = .error .layers) := by
  refine ⟨⟨?_, ?_, ?_, ?_⟩, ⟨?_, ?_, ?_, ?_⟩, ⟨?_, ?_, ?_, ?_⟩⟩
  any_goals
    simp only [Placeholder.IsLiteral]
    simp [List.infix_cons_iff]
  all_goals decide +kernel

end MqttLink.Settings
