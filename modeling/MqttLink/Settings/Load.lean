import MqttLink.Settings.Layers
import MqttLink.Settings.Placeholder
import MqttLink.Settings.Toml.Document
/-!
# Settings from text

Settings are read from a text on its own, in version 1.0 of TOML, which then
says them exactly (`parse`), or from a file in version 1.1, between the defaults
and the overrides of an environment (`load`). Either way they are only given out if
nothing is wrong with them.
-/

namespace MqttLink.Settings

/-- Why there are no settings (`ConfigError`). -/
inductive Failure where
  /-- A text is no TOML, or says something of the wrong type. -/
  | text
  /-- A file is no TOML, or something in the layers is of the wrong type. -/
  | layers
  /-- The settings make no sense. -/
  | flawed (flaw : Flaw)
deriving DecidableEq, Repr

/-- Gives out settings if nothing is wrong with them. -/
def checked (s : Settings) : Except Failure Settings :=
  match s.flaw? with
  | some flaw => .error (.flawed flaw)
  | none => .ok s

/-- Reads settings from a text on its own (`parse`). -/
def parse (text : String) : Except Failure Settings :=
  match (Toml.parse? .v1_0 text).bind (read .exact) with
  | some s => checked s
  | none => .error .text

/-- The text of a file, with the variables of an environment put in
(`substitute_env_vars`). -/
def expanded (environment : Environment) (text : String) : String :=
  Placeholder.substitute environment.get? text

/-- Reads settings from a file, if there is one, and an environment (`load`). -/
def load (file : Option String) (environment : Environment) : Except Failure Settings :=
  let entries :=
    match file with
    | some text => Toml.parse? .v1_1 (expanded environment text)
    | none => some []
  match entries.bind fun entries => read .loose (layers entries environment) with
  | some s => checked s
  | none => .error .layers

end MqttLink.Settings
