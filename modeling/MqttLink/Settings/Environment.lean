import MqttLink.Number.Double
import MqttLink.Settings.Record
/-!
# Variables of the environment

Variables have two uses. Placeholders ask for a variable by its name, and variables
with names of a certain form override settings.
-/

namespace MqttLink.Settings

/-- The environment: variables and their texts. -/
abbrev Environment := List (String × String)

/-- The text behind a name and an equals sign, if a line starts with them. -/
def textBehind? (name line : List Char) : Option (List Char) :=
  let start := name ++ ['=']
  if start.isPrefixOf line then some (line.drop start.length) else none

/-- The text of a variable. Each variable is a line with an equals sign behind its
name, and the line that starts with the name asked for and such a sign gives the
text; so a name may also take in a part of a text that has the sign itself. -/
def Environment.get? (environment : Environment) (name : String) : Option String :=
  environment.findSome? fun (owner, text) =>
    (textBehind? name.toList (owner.toList ++ '=' :: text.toList)).map String.ofList

/-! ## Overrides -/

/-- How the names of overriding variables begin, in lower case. -/
def overrideStart : List Char := "mqtt_endpoint__".toList

/-- Doubled underscores, which part keys in the name of a variable, as points. -/
def pointed : List Char → List Char
  | '_' :: '_' :: rest => '.' :: pointed rest
  | c :: rest => c :: pointed rest
  | [] => []

/-- The name under which a variable overrides a setting, if it is one that does. -/
def overrideName? (name : String) : Option String :=
  let cs := (lower name).toList
  if overrideStart.isPrefixOf cs then
    some (String.ofList (pointed (cs.drop overrideStart.length)))
  else none

/-- The value of a variable: the type that its text has the form of. -/
def valueOf (text : String) : Value :=
  match lower text with
  | "true" => .bool true
  | "false" => .bool false
  | _ =>
    match Number.toInt64? text, Number.Double.ofText? text with
    | some n, _ => .integer n
    | none, some x => .float x
    | none, none => .text text

/-- The overrides that an environment holds, in its order (`Environment` in `load`). -/
def Environment.overrides (environment : Environment) : Entries :=
  environment.filterMap fun (name, text) => (overrideName? name).map (·, valueOf text)

end MqttLink.Settings
