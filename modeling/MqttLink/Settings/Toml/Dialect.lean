/-!
# Dialects of TOML

Two versions of TOML are in use. The later one is freer: it knows more escapes,
lets inline tables go over several lines, and lets a time of day do without its
seconds. A dialect says what the readers allow, and within which limits. Where a
version leaves something open, such as how deep values may be nested, the dialect
settles it.
-/

namespace MqttLink.Toml

/-- What a reader of TOML allows. -/
structure Dialect where
  /-- Whether `\e` and a `\x` with two digits are escapes. -/
  moreEscapes : Bool
  /-- Whether an inline table may go over several lines and end in a comma. -/
  freeInlineTables : Bool
  /-- Whether a time of day may leave out its seconds. -/
  shortTimes : Bool
  /-- Whether the ends of lines in a string stay as they are written. Otherwise each
  of them becomes a line feed. -/
  keepsLineEnds : Bool
  /-- Whether dotted keys may add to a table that headers have only passed through. -/
  joinsPassed : Bool
  /-- Whether a number too far below zero counts as infinite. Otherwise it is refused,
  as one too far above zero always is. -/
  reachesMinusInfinity : Bool
  /-- How deep values may be nested. -/
  maxDepth : Nat
  /-- How many parts a key may have, if there is a limit. -/
  maxParts : Option Nat
deriving DecidableEq, Repr

/-- Version 1.0, which `parse` reads. -/
def Dialect.v1_0 : Dialect where
  moreEscapes := false
  freeInlineTables := false
  shortTimes := false
  keepsLineEnds := false
  joinsPassed := false
  reachesMinusInfinity := true
  maxDepth := 79
  maxParts := some 79

/-- Version 1.1, which the file of `load` is in. -/
def Dialect.v1_1 : Dialect where
  moreEscapes := true
  freeInlineTables := true
  shortTimes := true
  keepsLineEnds := true
  joinsPassed := true
  reachesMinusInfinity := false
  maxDepth := 80
  maxParts := none

end MqttLink.Toml
