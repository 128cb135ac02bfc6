import Mathlib.Data.List.TakeWhile
import MqttLink.Settings.Layers
import MqttLink.Settings.Record
import MqttLink.Proofs.Settings.Keyed
/-!
# Defaults may be said or left out

A record fills in what is left out itself, and the lowest layer says the same defaults in words. So laying the entries
of a document over the lowest layer changes nothing in how they are read (`read_over_defaults`): a member that is
there is the same (`lookup_overlayEntries`), and one that is not is read from the words for what the record fills in.
The other difference between the two ways to settings is how strict they are with single values, and what is taken
exactly is taken loosely alike (`read_loose`).
-/

namespace MqttLink.Settings

/-! ## Entries laid over entries -/

/-- Under a key of the upper entries stands what they say, laid over what stood there; under any other, what stood
there. -/
theorem lookup_overlayEntries {upper : Entries} (distinct : Distinct upper) (below : Entries) (key : String) :
    (overlayEntries upper below).lookup key =
      match upper.lookup key with
      | some v => some (overlay v (under key below))
      | none => below.lookup key := by
  induction upper generalizing below with
  | nil => rfl
  | cons entry rest ih =>
    obtain ⟨k, v⟩ := entry
    obtain ⟨new, others⟩ := List.nodup_cons.1 distinct
    rw [overlayEntries, ih others]
    by_cases same : key = k
    · subst same
      -- The key does not come again, so nothing later is laid over this value.
      have once : rest.lookup key = none := by
        apply List.lookup_eq_none_iff.2
        intro e inside
        apply bne_iff_ne.2
        rintro rfl
        exact new (List.mem_map.2 ⟨e, inside, rfl⟩)
      simp [once, lookup_setEntry]
    · have apart : (key == k) = false := beq_eq_false_iff_ne.2 same
      simp [List.lookup_cons, apart, under, lookup_setEntry, same]

/-! ## Names that spell a single key -/

theorem ofName_bare {name : String} (bare : ∀ c ∈ name.toList, Toml.isBareKey c = true) :
    Path.ofName name = [.key name] := by
  have all : name.toList.takeWhile Toml.isBareKey = name.toList := List.takeWhile_eq_self_iff.2 bare
  have behind : name.toList.dropWhile Toml.isBareKey = [] := List.dropWhile_eq_nil_iff.2 bare
  unfold Path.ofName keyStep?
  dsimp only
  rw [all, behind]
  by_cases empty : name.toList.isEmpty = true
  · rw [if_pos empty]
    rfl
  · rw [if_neg empty]
    simp [steps?]

/-- Entries whose names spell single keys are laid over a table as a table is. -/
theorem layer_bare {values : Entries} (bare : ∀ e ∈ values, ∀ c ∈ e.1.toList, Toml.isBareKey c = true)
    (below : Entries) : layer values (.table below) = .table (overlayEntries values below) := by
  induction values generalizing below with
  | nil => rfl
  | cons entry rest ih =>
    obtain ⟨name, v⟩ := entry
    have first := ofName_bare (bare (name, v) (List.mem_cons_self ..))
    have others := ih fun e inside => bare e (List.mem_cons_of_mem _ inside)
    unfold layer at others ⊢
    rw [List.foldl_cons]
    dsimp only
    rw [first, overlayAt, overlayAt, others, overlayEntries]
    rfl

/-! ## Members laid over members -/

/-- The members of a record with others below. An array covers all that is below it. -/
def Members.over (below : Entries) : Members → Members
  | .named entries => .named (overlayEntries entries below)
  | .listed items => .listed items

/-- Members of which each is named once. -/
def Members.Keyed : Members → Prop
  | .named entries => Distinct entries ∧ ∀ e ∈ entries, e.2.Keyed
  | .listed _ => True

theorem members_overlay (v : Value) (below : Entries) :
    Convention.loose.members (overlay v (.table below)) = (Convention.loose.members v).map (Members.over below) := by
  cases v <;> rfl

theorem keyed_members {v : Value} (keyed : v.Keyed) {m : Members} (taken : Convention.loose.members v = some m) :
    m.Keyed := by
  unfold Convention.loose at taken
  dsimp only at taken
  split at taken
  · cases taken
    exact Value.keyed_table.1 keyed
  · cases taken
    trivial
  · cases taken

/-- A value is taken alike, be it laid over another or not. -/
def Unmoved {α : Type} (read : Value → Option α) (below : Value) : Prop :=
  ∀ v : Value, v.Keyed → read (overlay v below) = read v

/-- A reading that takes no table does not see what is below: nothing else is joined with it. -/
theorem unmoved_scalar {α : Type} {read : Value → Option α} (noTable : ∀ entries, read (.table entries) = none)
    (below : Value) : Unmoved read below := by
  intro v _
  cases v with
  | table entries => rw [overlay, noTable, noTable]
  | _ => rfl

theorem unmoved_text (below : Value) : Unmoved Convention.loose.text below :=
  unmoved_scalar (fun _ => rfl) below

theorem unmoved_flag (below : Value) : Unmoved Convention.loose.flag below :=
  unmoved_scalar (fun _ => rfl) below

theorem unmoved_size (below : Value) : Unmoved Convention.loose.size below :=
  unmoved_scalar (fun _ => rfl) below

theorem unmoved_span (below : Value) : Unmoved Convention.loose.span below :=
  unmoved_scalar (fun _ => rfl) below

theorem unmoved_address (below : Value) : Unmoved Convention.loose.address below :=
  unmoved_scalar (fun _ => rfl) below

section

variable {α : Type} {m : Members} {below : Entries} {position : Nat} {name : String} {read : Value → Option α}

/-- A member that may be left out is the same with its default below. -/
theorem Members.optional_over (keyed : m.Keyed) (unmoved : Unmoved read (under name below)) {default : α}
    (said : ∀ w, below.lookup name = some w → read w = some default) :
    (m.over below).optional position name read default = m.optional position name read default := by
  cases m with
  | listed items => rfl
  | named entries =>
    unfold Members.optional Members.over Members.get?
    dsimp only
    rw [lookup_overlayEntries keyed.1]
    cases own : entries.lookup name with
    | some v => exact unmoved v (keyed.2 _ (mem_of_lookup own))
    | none =>
      cases lower : below.lookup name with
      | some w => exact said w lower
      | none => rfl

/-- A member that has to be there is the same where there is none below. -/
theorem Members.required_over (keyed : m.Keyed) (unmoved : Unmoved read (under name below))
    (unsaid : below.lookup name = none) :
    (m.over below).required position name read = m.required position name read := by
  cases m with
  | listed items => rfl
  | named entries =>
    unfold Members.required Members.over Members.get?
    dsimp only
    rw [lookup_overlayEntries keyed.1]
    cases own : entries.lookup name with
    | some v => exact unmoved v (keyed.2 _ (mem_of_lookup own))
    | none => rw [unsaid]

/-- A member of which there may be none is the same where there is none below. -/
theorem Members.possible_over (keyed : m.Keyed) (unmoved : Unmoved read (under name below))
    (unsaid : below.lookup name = none) :
    (m.over below).possible position name read = m.possible position name read := by
  cases m with
  | listed items => rfl
  | named entries =>
    unfold Members.possible Members.over Members.get?
    dsimp only
    rw [lookup_overlayEntries keyed.1]
    cases own : entries.lookup name with
    | some v =>
      have same := unmoved v (keyed.2 _ (mem_of_lookup own))
      cases v with
      | nothing => rfl
      | _ => exact congrArg (Option.map some) same
    | none => rw [unsaid]

theorem Members.reach_over : (m.over below).reach position = m.reach position := by
  cases m <;> rfl

end

/-! ## Records over their defaults -/

/-- A record is the same over a table over which its members are the same. -/
theorem unmoved_record {α : Type} {read : Members → Option α} {below : Entries}
    (same : ∀ m : Members, m.Keyed → read (m.over below) = read m) :
    Unmoved (fun v => (Convention.loose.members v).bind read) (.table below) := by
  intro v keyed
  dsimp only
  rw [members_overlay]
  cases taken : Convention.loose.members v with
  | none => rfl
  | some m => exact same m (keyed_members keyed taken)

theorem Log.unmoved_default : Unmoved (Log.read .loose) (under "log" defaults) := by
  apply unmoved_record
  intro m keyed
  rw [Members.optional_over keyed (unmoved_text _)]
  rintro w ⟨⟩
  rfl

/-- Encryption has no defaults, so nothing is below it. -/
theorem Tls.unmoved_nothing : Unmoved (Tls.read .loose) .nothing := by
  have unmoved : Unmoved (Tls.read .loose) (.table []) := by
    apply unmoved_record
    intro m keyed
    rw [Members.required_over keyed (unmoved_text _) rfl, Members.required_over keyed (unmoved_text _) rfl,
      Members.reach_over, Members.possible_over keyed (unmoved_text _) rfl,
      Members.optional_over keyed (unmoved_flag _)]
    rintro w ⟨⟩
  intro v keyed
  have same : overlay v .nothing = overlay v (.table []) := by
    cases v <;> rfl
  rw [same]
  exact unmoved v keyed

theorem Server.unmoved_default : Unmoved (Server.read .loose) (under "server" defaults) := by
  apply unmoved_record
  intro m keyed
  rw [Members.optional_over keyed (unmoved_address _), Members.possible_over keyed (unmoved_address _) rfl,
    Members.possible_over keyed Tls.unmoved_nothing rfl, Members.optional_over keyed (unmoved_size _)]
  · rintro w ⟨⟩
    rfl
  · rintro w ⟨⟩
    rfl

theorem Endpoint.unmoved_default : Unmoved (Endpoint.read .loose) (under "endpoint" defaults) := by
  apply unmoved_record
  intro m keyed
  dsimp only
  rw [Members.optional_over keyed (unmoved_span _), Members.optional_over keyed (unmoved_span _),
    Members.optional_over keyed (unmoved_flag _), Members.optional_over keyed (unmoved_size _),
    Members.optional_over keyed (unmoved_size _), Members.optional_over keyed (unmoved_size _)]
  all_goals
    rintro w ⟨⟩
    rfl

/-- Entries are read alike with the lowest layer below. -/
theorem read_over_defaults {entries : Entries} (keyed : (Value.table entries).Keyed) :
    read .loose (overlayEntries entries defaults) = read .loose entries := by
  have keyed' : (Members.named entries).Keyed := Value.keyed_table.1 keyed
  have laid : Members.named (overlayEntries entries defaults) = (Members.named entries).over defaults := rfl
  unfold read
  dsimp only
  rw [laid, Members.optional_over keyed' Log.unmoved_default, Members.optional_over keyed' Server.unmoved_default,
    Members.optional_over keyed' Endpoint.unmoved_default]
  all_goals
    rintro w ⟨⟩
    rfl

/-! ## Exact values taken loosely -/

section

variable {α : Type} {read read' : Value → Option α} {m : Members} {position : Nat} {name : String}

theorem Members.optional_mono_of {default x : α}
    (wider : ∀ v, m.get? position name = some v → ∀ x, read v = some x → read' v = some x)
    (taken : m.optional position name read default = some x) : m.optional position name read' default = some x := by
  unfold Members.optional at taken ⊢
  split at taken
  · rename_i v there
    exact wider v there x taken
  · exact taken

variable (wider : ∀ v x, read v = some x → read' v = some x)

include wider

theorem Members.required_mono {x : α} (taken : m.required position name read = some x) :
    m.required position name read' = some x := by
  obtain ⟨v, there, value⟩ := Option.bind_eq_some_iff.1 taken
  exact Option.bind_eq_some_iff.2 ⟨v, there, wider v x value⟩

theorem Members.optional_mono {default x : α} (taken : m.optional position name read default = some x) :
    m.optional position name read' default = some x :=
  Members.optional_mono_of (fun v _ => wider v) taken

theorem Members.possible_mono {x : Option α} (taken : m.possible position name read = some x) :
    m.possible position name read' = some x := by
  unfold Members.possible at taken ⊢
  split at taken
  · exact taken
  · exact taken
  · obtain ⟨y, value, same⟩ := Option.map_eq_some_iff.1 taken
    rw [wider _ y value, Option.map_some, same]

end

/-- What one convention takes for a single value, another takes for the same. -/
structure Convention.Within (c c' : Convention) : Prop where
  text : ∀ v s, c.text v = some s → c'.text v = some s
  flag : ∀ v b, c.flag v = some b → c'.flag v = some b
  size : ∀ v n, c.size v = some n → c'.size v = some n

theorem exact_within_loose : Convention.exact.Within .loose := by
  constructor
  · intro v s taken
    cases v with
    | text _ => exact taken
    | _ => cases taken
  · intro v b taken
    cases v with
    | bool _ => exact taken
    | _ => cases taken
  · intro v n taken
    cases v with
    | integer _ => exact taken
    | _ => cases taken

theorem Convention.Within.span {c c' : Convention} (h : c.Within c') (v : Value) (s : Span)
    (taken : c.span v = some s) : c'.span v = some s := by
  obtain ⟨text, words, span⟩ := Option.bind_eq_some_iff.1 taken
  exact Option.bind_eq_some_iff.2 ⟨text, h.text v text words, span⟩

theorem Convention.Within.address {c c' : Convention} (h : c.Within c') (v : Value) (a : SocketAddress)
    (taken : c.address v = some a) : c'.address v = some a := by
  obtain ⟨text, words, address⟩ := Option.bind_eq_some_iff.1 taken
  exact Option.bind_eq_some_iff.2 ⟨text, h.text v text words, address⟩

/-- A value that is no date has the same members. -/
theorem members_loose {v : Value} {m : Members} (noDate : ∀ s, v ≠ .datetime s)
    (taken : Convention.exact.members v = some m) : Convention.loose.members v = some m := by
  cases v with
  | datetime s => exact absurd rfl (noDate s)
  | table entries => exact taken
  | array items => exact taken
  | _ => cases taken

theorem Log.read_loose {v : Value} {log : Log} (noDate : ∀ s, v ≠ .datetime s)
    (taken : Log.read .exact v = some log) : Log.read .loose v = some log := by
  unfold Log.read at taken ⊢
  simp only [Option.bind_eq_bind, Option.bind_eq_some_iff] at taken ⊢
  obtain ⟨m, members, level, hLevel, same⟩ := taken
  exact ⟨m, members_loose noDate members, level, Members.optional_mono exact_within_loose.text hLevel, same⟩

/-- A date gives no certificate, so here there is no exception. -/
theorem Tls.read_loose (v : Value) (tls : Tls) (taken : Tls.read .exact v = some tls) :
    Tls.read .loose v = some tls := by
  have noDate : ∀ s, v ≠ .datetime s := by
    rintro s rfl
    cases taken
  unfold Tls.read at taken ⊢
  simp only [Option.bind_eq_bind, Option.bind_eq_some_iff] at taken ⊢
  obtain ⟨m, members, cert, hCert, key, hKey, more⟩ := taken
  refine ⟨m, members_loose noDate members, cert, Members.required_mono exact_within_loose.text hCert, key,
    Members.required_mono exact_within_loose.text hKey, ?_⟩
  split at more
  · cases more
  · rename_i reach
    rw [if_neg reach]
    obtain ⟨caCert, hCaCert, more⟩ := Option.bind_eq_some_iff.1 more
    obtain ⟨client, hClient, same⟩ := Option.bind_eq_some_iff.1 more
    exact Option.bind_eq_some_iff.2 ⟨caCert, Members.possible_mono exact_within_loose.text hCaCert,
      Option.bind_eq_some_iff.2 ⟨client, Members.optional_mono exact_within_loose.flag hClient, same⟩⟩

theorem Server.read_loose {v : Value} {server : Server} (noDate : ∀ s, v ≠ .datetime s)
    (taken : Server.read .exact v = some server) : Server.read .loose v = some server := by
  unfold Server.read at taken ⊢
  simp only [Option.bind_eq_bind, Option.bind_eq_some_iff] at taken ⊢
  obtain ⟨m, members, bind, hBind, tlsBind, hTlsBind, tls, hTls, instances, hInstances, same⟩ := taken
  refine ⟨m, members_loose noDate members, bind, ?_, tlsBind, ?_, tls, ?_, instances, ?_, same⟩
  · exact Members.optional_mono exact_within_loose.address hBind
  · exact Members.possible_mono exact_within_loose.address hTlsBind
  · exact Members.possible_mono Tls.read_loose hTls
  · exact Members.optional_mono exact_within_loose.size hInstances

theorem Endpoint.read_loose {v : Value} {endpoint : Endpoint} (noDate : ∀ s, v ≠ .datetime s)
    (taken : Endpoint.read .exact v = some endpoint) : Endpoint.read .loose v = some endpoint := by
  unfold Endpoint.read at taken ⊢
  simp only [Option.bind_eq_bind, Option.bind_eq_some_iff] at taken ⊢
  obtain ⟨m, members, connect, hConnect, accept, hAccept, autoAck, hAutoAck, packet, hPacket, event, hEvent, command,
    hCommand, same⟩ := taken
  refine ⟨m, members_loose noDate members, connect, ?_, accept, ?_, autoAck, ?_, packet, ?_, event, ?_, command, ?_,
    same⟩
  · exact Members.optional_mono exact_within_loose.span hConnect
  · exact Members.optional_mono exact_within_loose.span hAccept
  · exact Members.optional_mono exact_within_loose.flag hAutoAck
  · exact Members.optional_mono exact_within_loose.size hPacket
  · exact Members.optional_mono exact_within_loose.size hEvent
  · exact Members.optional_mono exact_within_loose.size hCommand

/-- No section is a date. -/
def Undated (entries : Entries) : Prop :=
  ∀ name ∈ ["log", "server", "endpoint"], ∀ s, entries.lookup name ≠ some (.datetime s)

/-- What a table without dates for its sections says exactly, it says loosely alike. -/
theorem read_loose {entries : Entries} {settings : Settings} (undated : Undated entries)
    (taken : read .exact entries = some settings) : read .loose entries = some settings := by
  have noDate {name : String} {v : Value} (known : name ∈ ["log", "server", "endpoint"])
      (there : entries.lookup name = some v) : ∀ s, v ≠ .datetime s := by
    rintro s rfl
    exact undated name known s there
  unfold read at taken ⊢
  simp only [Option.bind_eq_bind, Option.bind_eq_some_iff] at taken ⊢
  obtain ⟨log, hLog, server, hServer, endpoint, hEndpoint, same⟩ := taken
  refine ⟨log, ?_, server, ?_, endpoint, ?_, same⟩
  · apply Members.optional_mono_of _ hLog
    intro v there x
    exact Log.read_loose (noDate (by simp) there)
  · apply Members.optional_mono_of _ hServer
    intro v there x
    exact Server.read_loose (noDate (by simp) there)
  · apply Members.optional_mono_of _ hEndpoint
    intro v there x
    exact Endpoint.read_loose (noDate (by simp) there)

end MqttLink.Settings
