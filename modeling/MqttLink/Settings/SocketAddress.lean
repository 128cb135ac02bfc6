import MqttLink.Number.Decimal
/-!
# Socket addresses

An IP address with a TCP port: `127.0.0.1:1883` or `[::1]:1883`. The four octets
of an IPv4 address are decimal numbers without leading zeros. An IPv6 address has
eight groups of hexadecimal digits, of which one run of zeros may be left out, and
its last two groups may be written like an IPv4 address; a scope number may follow
it.

Written out, an IPv6 address has no leading zeros, and its longest run of at
least two zero groups, the first if there are several, is left out.
-/

namespace MqttLink

/-- Where to listen. -/
inductive SocketAddress where
  | v4 (octets : List Nat) (tcpPort : Nat)
  | v6 (groups : List Nat) (scope : Nat) (tcpPort : Nat)
deriving DecidableEq, Repr, Inhabited

namespace SocketAddress

open Number

/-! ## Reading -/

/-- A character that has to come next. -/
def expect (wanted : Char) (cs : List Char) : Option (List Char) :=
  match cs with
  | c :: rest => if c = wanted then some rest else none
  | [] => none

/-- A decimal number below a bound; leading zeros are free. -/
def bounded? (bound : Nat) (cs : List Char) : Option (Nat × List Char) :=
  let (digits, rest) := cs.span isDecimal
  match ofDigits? 10 digits with
  | some n => if n < bound then some (n, rest) else none
  | none => none

/-- One octet of an IPv4 address. -/
def octet? (cs : List Char) : Option (Nat × List Char) :=
  let (digits, rest) := cs.span isDecimal
  if digits.length > 3 || (digits.length > 1 && digits.head? == some '0') then none
  else
    match ofDigits? 10 digits with
    | some n => if n < 256 then some (n, rest) else none
    | none => none

/-- The four octets of an IPv4 address. -/
def octets? (cs : List Char) : Option (List Nat × List Char) := do
  let (a, rest) ← octet? cs
  let (b, rest) ← octet? (← expect '.' rest)
  let (c, rest) ← octet? (← expect '.' rest)
  let (d, rest) ← octet? (← expect '.' rest)
  return ([a, b, c, d], rest)

/-- A TCP port behind its colon, at the end of the text. -/
def tcpPort? (cs : List Char) : Option Nat := do
  match ← bounded? 65536 (← expect ':' cs) with
  | (n, []) => return n
  | _ => none

/-- One group of an IPv6 address. -/
def group? (cs : List Char) : Option (Nat × List Char) :=
  let (digits, rest) := cs.span (isDigit 16)
  if digits.length > 4 then none else (ofDigits? 16 digits).map (·, rest)

/-- What stands in front of a group: nothing before the first, a colon before the
others. -/
def separated {α : Type} (isFirst : Bool) (item : List Char → Option α) (cs : List Char) :
    Option α :=
  if isFirst then item cs else (expect ':' cs).bind item

/-- As many groups as there are, but no more than `left`. The last two may be
written as an IPv4 address, which is then the end; says whether they are. -/
def groupsFrom (isFirst : Bool) : (left : Nat) → List Char → List Nat × Bool × List Char
  | 0, cs => ([], false, cs)
  | left + 1, cs =>
    let embedded := if left > 0 then separated isFirst octets? cs else none
    match embedded with
    | some (octets, rest) =>
      let octet (i : Nat) := octets.getD i 0
      ([octet 0 * 256 + octet 1, octet 2 * 256 + octet 3], true, rest)
    | none =>
      match separated isFirst group? cs with
      | none => ([], false, cs)
      | some (g, rest) =>
        let (more, isEmbedded, rest) := groupsFrom false left rest
        (g :: more, isEmbedded, rest)

/-- The eight groups of an IPv6 address. -/
def groups? (cs : List Char) : Option (List Nat × List Char) := do
  let (front, isEmbedded, rest) := groupsFrom true 8 cs
  if front.length = 8 then return (front, rest)
  else if isEmbedded then none
  else
    let rest ← expect ':' (← expect ':' rest)
    let (back, _, rest) := groupsFrom true (7 - front.length) rest
    return (front ++ List.replicate (8 - front.length - back.length) 0 ++ back, rest)

/-- The scope behind an IPv6 address, zero if none is given. -/
def scope? (cs : List Char) : Option (Nat × List Char) :=
  match cs with
  | '%' :: rest => bounded? 4294967296 rest
  | _ => some (0, cs)

/-- An IPv4 address and its TCP port. -/
def ofV4Text? (cs : List Char) : Option SocketAddress := do
  let (octets, rest) ← octets? cs
  return .v4 octets (← tcpPort? rest)

/-- An IPv6 address in brackets and its TCP port. -/
def ofV6Text? (cs : List Char) : Option SocketAddress := do
  let (groups, rest) ← groups? (← expect '[' cs)
  let (scope, rest) ← scope? rest
  return .v6 groups scope (← tcpPort? (← expect ']' rest))

/-- The address that a text spells. -/
def ofText? (text : String) : Option SocketAddress :=
  (ofV4Text? text.toList).or (ofV6Text? text.toList)

/-! ## Writing -/

/-- Octets in a row. -/
def octetsText (octets : List Nat) : String := ".".intercalate (octets.map toString)

/-- Groups in a row. -/
def groupsText (groups : List Nat) : String :=
  ":".intercalate (groups.map fun g => String.ofList (Nat.toDigits 16 g))

/-- Where the longest run of zeros starts and how long it is; the first of several
that are equally long. -/
def longestZeros (groups : List Nat) : Nat × Nat :=
  let runs := (List.range groups.length).map fun i =>
    (i, ((groups.drop i).takeWhile (· == 0)).length)
  runs.foldl (fun best run => if run.2 > best.2 then run else best) (0, 0)

/-- An IPv6 address. One that stands for an IPv4 address shows it. -/
def v6Text (groups : List Nat) : String :=
  match groups with
  | [0, 0, 0, 0, 0, 0xFFFF, high, low] =>
    "::ffff:" ++ octetsText [high / 256, high % 256, low / 256, low % 256]
  | _ =>
    let (start, length) := longestZeros groups
    if length > 1 then
      groupsText (groups.take start) ++ "::" ++ groupsText (groups.drop (start + length))
    else groupsText groups

/-- The text of an address. -/
def toText : SocketAddress → String
  | v4 octets tcpPort => octetsText octets ++ ":" ++ toString tcpPort
  | v6 groups scope tcpPort =>
    let scopeText := if scope = 0 then "" else "%" ++ toString scope
    "[" ++ v6Text groups ++ scopeText ++ "]:" ++ toString tcpPort

end SocketAddress
end MqttLink
