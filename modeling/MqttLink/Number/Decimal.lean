/-!
# Decimal digits

Runs of digits as numbers, and numbers as digits, in any radix up to sixteen.
-/

namespace MqttLink.Number

/-- The value of a digit in a radix, if it is one there. Letters count in either case. -/
def digit? (radix : Nat) (c : Char) : Option Nat :=
  let value :=
    if '0' ≤ c ∧ c ≤ '9' then c.toNat - '0'.toNat
    else if 'a' ≤ c ∧ c ≤ 'f' then c.toNat - 'a'.toNat + 10
    else if 'A' ≤ c ∧ c ≤ 'F' then c.toNat - 'A'.toNat + 10
    else 16
  if value < radix then some value else none

/-- Whether a character is a digit in a radix. -/
def isDigit (radix : Nat) (c : Char) : Bool := (digit? radix c).isSome

/-- Whether a character is a decimal digit. -/
def isDecimal (c : Char) : Bool := isDigit 10 c

/-- The number that digits spell; other characters count as zero. -/
def ofDigits (radix : Nat) (cs : List Char) : Nat :=
  cs.foldl (fun n c => n * radix + (digit? radix c).getD 0) 0

/-- The number that a text of digits and nothing else spells. -/
def ofDigits? (radix : Nat) (cs : List Char) : Option Nat :=
  if !cs.isEmpty && cs.all (isDigit radix) then some (ofDigits radix cs) else none

/-- A sign in front of a text, if there is one, and the rest. -/
def splitSign (cs : List Char) : Bool × List Char :=
  match cs with
  | '-' :: rest => (true, rest)
  | '+' :: rest => (false, rest)
  | _ => (false, cs)

/-- One more than the largest number of 64 bits without a sign. -/
def wordBound : Nat := 18446744073709551616

/-- One more than the largest number of 64 bits with a sign. -/
def signedBound : Nat := 9223372036854775808

/-- A signed decimal number of at most 64 bits. -/
def toInt64? (s : String) : Option Int :=
  let (negative, rest) := splitSign s.toList
  match ofDigits? 10 rest with
  | none => none
  | some n =>
    if negative then (if n ≤ signedBound then some (-(n : Int)) else none)
    else if n < signedBound then some n else none

/-- An unsigned decimal number of at most 64 bits; a plus sign may precede it. -/
def toNat64? (s : String) : Option Nat :=
  let rest :=
    match s.toList with
    | '+' :: rest => rest
    | cs => cs
  match ofDigits? 10 rest with
  | some n => if n < wordBound then some n else none
  | none => none

end MqttLink.Number
