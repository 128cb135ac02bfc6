import MqttLink.Number.Decimal
/-!
# Spans of time in words

A span is written as amounts that are added up: `1h 30m`, `2s500ms`, `1.5s`. An
amount is a number, which may have a decimal fraction, and a unit. White space
is free between amounts, in front of a unit and even inside a number. A lone
zero needs no unit. These are the texts that `humantime_serde` takes.

A span is kept in seconds and nanoseconds; every number on the way has to fit
64 bits.
-/

namespace MqttLink

/-- A length of time. -/
structure Span where
  seconds : Nat
  /-- Less than a second. -/
  nanos : Nat
deriving DecidableEq, Repr, Inhabited

namespace Span

/-- No time at all. -/
def zero : Span := ⟨0, 0⟩

/-- So many whole seconds. -/
def ofSeconds (n : Nat) : Span := ⟨n, 0⟩

/-- Whether a span is no time at all. -/
def isZero (s : Span) : Bool := s.seconds == 0 && s.nanos == 0

/-- A number, if 64 bits hold it. -/
def fit (n : Nat) : Option Nat := if n < Number.wordBound then some n else none

/-- The span with seconds and nanoseconds added. -/
def add? (s : Span) (seconds nanos : Nat) : Option Span := do
  let nanos ← fit (s.nanos + nanos)
  let seconds ← fit (s.seconds + seconds + nanos / 1000000000)
  return ⟨seconds, nanos % 1000000000⟩

/-! ## Units -/

/-- The size of a unit. -/
inductive Measure where
  /-- So many nanoseconds, less than a second. -/
  | nanos (n : Nat)
  /-- So many seconds. -/
  | seconds (n : Nat)
deriving DecidableEq, Repr

/-- The unit that a word stands for. A month is 30.44 days and a year 365.25. -/
def unit? : String → Option Measure
  | "nanos" | "nsec" | "ns" => some (.nanos 1)
  | "usec" | "us" | "µs" => some (.nanos 1000)
  | "millis" | "msec" | "ms" => some (.nanos 1000000)
  | "seconds" | "second" | "secs" | "sec" | "s" => some (.seconds 1)
  | "minutes" | "minute" | "mins" | "min" | "m" => some (.seconds 60)
  | "hours" | "hour" | "hrs" | "hr" | "h" => some (.seconds 3600)
  | "days" | "day" | "d" => some (.seconds 86400)
  | "weeks" | "week" | "wks" | "wk" | "w" => some (.seconds 604800)
  | "months" | "month" | "M" => some (.seconds 2630016)
  | "years" | "year" | "yrs" | "yr" | "y" => some (.seconds 31557600)
  | _ => none

/-- A decimal fraction: a numerator over a power of ten. -/
structure Fraction where
  numerator : Nat
  denominator : Nat

/-- A fraction of so many smaller units, if it comes out even. -/
def Fraction.of? (f : Fraction) (n : Nat) : Option Nat := do
  let product ← fit (f.numerator * n)
  if product % f.denominator = 0 then some (product / f.denominator) else none

/-- A fraction of a unit, in seconds and nanoseconds. Below a minute, and of a
minute, it has to come out even in nanoseconds, of longer units in seconds; and
there is none of a nanosecond. -/
def ofFraction? (f : Fraction) : Measure → Option (Nat × Nat)
  | .nanos n => if n = 1 then none else (f.of? n).map (0, ·)
  | .seconds n =>
    if n ≤ 60 then (f.of? (n * 1000000000)).map (0, ·) else (f.of? n).map (·, 0)

/-- The span with an amount added. -/
def addAmount? (s : Span) (whole : Nat) (fraction : Option Fraction) (unit : Measure) :
    Option Span := do
  let (seconds, nanos) ←
    match unit with
    | .nanos n => (fit (whole * n)).map (0, ·)
    | .seconds n => (fit (whole * n)).map (·, 0)
  let s ← s.add? seconds nanos
  match fraction with
  | none => return s
  | some f =>
    let (seconds, nanos) ← ofFraction? f unit
    s.add? seconds nanos

/-! ## Text -/

/-- White space, as Unicode defines it. -/
def isBlank (c : Char) : Bool :=
  let n := c.toNat
  (9 ≤ n && n ≤ 13) || n == 0x20 || n == 0x85 || n == 0xA0 || n == 0x1680 ||
    (0x2000 ≤ n && n ≤ 0x200A) || n == 0x2028 || n == 0x2029 || n == 0x202F || n == 0x205F ||
    n == 0x3000

/-- The letters that units are made of. -/
def isUnitLetter (c : Char) : Bool := ('a' ≤ c && c ≤ 'z') || ('A' ≤ c && c ≤ 'Z') || c == 'µ'

/-- The digits of a number and the blanks among them, and the rest. -/
def splitNumber (cs : List Char) : List Char × List Char :=
  let (run, rest) := cs.span fun c => Number.isDecimal c || isBlank c
  (run.filter Number.isDecimal, rest)

/-- The fraction behind a decimal point. It has at least one digit. -/
def fraction? (cs : List Char) : Option (Fraction × List Char) := do
  let (digits, rest) := splitNumber cs
  let denominator ← fit (Nat.pow 10 digits.length)
  let numerator ← fit (Number.ofDigits 10 digits)
  if digits.isEmpty then none else some (⟨numerator, denominator⟩, rest)

/-- One amount at the front of a text, which starts with a digit. -/
def amount? (cs : List Char) : Option (Nat × Option Fraction × Measure × List Char) := do
  let (digits, rest) := splitNumber cs
  let whole ← fit (Number.ofDigits 10 digits)
  let (fraction, rest) ←
    match rest with
    | '.' :: rest => (fraction? rest).map fun (f, rest) => (some f, rest)
    | _ => some (none, rest)
  let (word, rest) := rest.span isUnitLetter
  let unit ← unit? (String.ofList word)
  return (whole, fraction, unit, rest)

/-- Adds up amounts until the text ends; there are no more of them than characters. -/
def sum? : (fuel : Nat) → Span → List Char → Option Span
  | 0, _, _ => none
  | fuel + 1, s, cs =>
    match cs.dropWhile isBlank with
    | [] => some s
    | c :: rest =>
      if Number.isDecimal c then do
        let (whole, fraction, unit, rest) ← amount? (c :: rest)
        sum? fuel (← s.addAmount? whole fraction unit) rest
      else none

/-- The span that a text spells. -/
def ofText? (text : String) : Option Span :=
  let cs := text.toList
  if cs == ['0'] then some zero
  else if cs.all isBlank then none
  else sum? (cs.length + 1) zero cs

end Span
end MqttLink
