/-!
# Topic names

A message is published under a topic name. A name is not empty, fits the
two-byte length that precedes it on the wire, and holds neither of the two
wildcards nor the null character.
-/

namespace MqttLink.Topic

/-- The longest text that a two-byte length can precede, in bytes. -/
def maxBytes : Nat := 65535

/-- Whether a character selects several topics when it stands in a filter. -/
def isWildcard (c : Char) : Bool := c == '+' || c == '#'

/-- Whether a text holds a wildcard. -/
def hasWildcard (s : String) : Bool := s.toList.any isWildcard

/-- Whether a text holds the null character, which no text on the wire may. -/
def hasNull (s : String) : Bool := s.toList.any (· == '\x00')

/-- Whether a message may be published under this text (`is_valid_topic_name`). -/
def isName (s : String) : Bool :=
  !s.isEmpty && s.utf8ByteSize ≤ maxBytes && !hasWildcard s && !hasNull s

theorem isName_iff {s : String} :
    isName s = true ↔
      s.isEmpty = false ∧ s.utf8ByteSize ≤ maxBytes ∧ hasWildcard s = false ∧
        hasNull s = false := by
  simp [isName, and_assoc]

end MqttLink.Topic
