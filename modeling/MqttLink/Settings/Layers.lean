import MqttLink.Settings.Path
import MqttLink.Settings.Environment
/-!
# Layers of settings

Settings may come in layers: the defaults, a file over them, and overrides by
variables on top. Each layer puts its values at the places that their names spell.
-/

namespace MqttLink.Settings

/-- Lays values over a table, each at its name. -/
def layer (values : Entries) (below : Value) : Value :=
  values.foldl (fun below (name, v) => overlayAt v (Path.ofName name) below) below

/-- The lowest layer, which says the defaults (`set_default`). -/
def defaults : Entries :=
  [("log", .table [("level", .text "info")]),
   ("server", .table [("bind", .text "0.0.0.0:1883"), ("instances", .integer 1)]),
   ("endpoint", .table
     [("connect_timeout", .text "30s"), ("accept_timeout", .text "30s"), ("auto_ack", .bool true),
      ("max_packet_size", .integer 1048576), ("event_capacity", .integer 64),
      ("command_capacity", .integer 64)])]

/-- All layers, the lowest first. -/
def layers (file : Entries) (environment : Environment) : Entries :=
  (layer environment.overrides (layer file (.table defaults))).entries

end MqttLink.Settings
