import MqttLink.Number.Double
import MqttLink.Settings.Value
import MqttLink.Settings.Toml.Dialect
/-!
# Numbers, booleans, dates and times of TOML

A scalar without quotes is a run of letters, digits and a few signs. The run as a
whole has to be of one of the forms here.
-/

namespace MqttLink.Toml

open Number
open Settings (Value)

/-- The characters of a scalar without quotes. -/
def isScalarChar (c : Char) : Bool :=
  c.isAlphanum || c == '_' || c == '+' || c == '-' || c == '.' || c == ':'

/-! ## Numbers -/

/-- Digits with single underscores between them. -/
def digits? (radix : Nat) (cs : List Char) : Option (List Char) :=
  let isSeparated : List Char → Bool := fun cs =>
    (cs.zip (cs.drop 1)).all fun (a, b) => a != '_' || b != '_'
  let digits := cs.filter (· != '_')
  if !digits.isEmpty && digits.all (isDigit radix) && cs.head? != some '_' &&
      cs.getLast? != some '_' && isSeparated cs then some digits
  else none

/-- Digits that do not start with a needless zero. -/
def properDigits? (cs : List Char) : Option (List Char) := do
  let digits ← digits? 10 cs
  if digits.length > 1 && digits.head? == some '0' then none else some digits

/-- A whole number of 64 bits, with a sign in decimal notation and without one in
the others. -/
def integer? (cs : List Char) : Option Int :=
  let bounded (n : Int) : Option Int :=
    if -(signedBound : Int) ≤ n ∧ n < signedBound then some n else none
  match cs with
  | '0' :: 'x' :: rest => (digits? 16 rest).bind fun ds => bounded (ofDigits 16 ds)
  | '0' :: 'o' :: rest => (digits? 8 rest).bind fun ds => bounded (ofDigits 8 ds)
  | '0' :: 'b' :: rest => (digits? 2 rest).bind fun ds => bounded (ofDigits 2 ds)
  | _ =>
    let (negative, rest) := splitSign cs
    (properDigits? rest).bind fun ds =>
      let n : Int := ofDigits 10 ds
      bounded (if negative then -n else n)

/-- A decimal number with a fraction, an exponent or both, if it is not too large. -/
def decimal? (d : Dialect) (negative : Bool) (cs : List Char) : Option Double := do
  let isExponent (c : Char) : Bool := c == 'e' || c == 'E'
  let mantissa := cs.takeWhile (!isExponent ·)
  let whole := mantissa.takeWhile (· != '.')
  let wholeDigits ← properDigits? whole
  let fraction ←
    match mantissa.dropWhile (· != '.') with
    | _ :: rest => digits? 10 rest
    | [] => some []
  let exponent ←
    match cs.dropWhile (!isExponent ·) with
    | _ :: rest =>
      let (negative, rest) := splitSign rest
      (digits? 10 rest).map fun ds => if negative then -(ofDigits 10 ds : Int) else ofDigits 10 ds
    | [] => some 0
  if mantissa.length = cs.length && whole.length = mantissa.length then none
  else
    let x := Double.ofDecimal negative (ofDigits 10 (wholeDigits ++ fraction))
      (exponent - fraction.length)
    if x = .infinite negative ∧ !(negative && d.reachesMinusInfinity) then none else some x

/-- A floating-point number. -/
def float? (d : Dialect) (cs : List Char) : Option Double :=
  let (negative, rest) := splitSign cs
  if rest == "inf".toList then some (.infinite negative)
  else if rest == "nan".toList then some .nan
  else decimal? d negative rest

/-! ## Dates and times -/

/-- A number of exactly so many digits within bounds. -/
def fixed? (width low high : Nat) (cs : List Char) : Option (List Char × List Char) :=
  let digits := cs.take width
  let n := ofDigits 10 digits
  if digits.length = width && digits.all isDecimal && low ≤ n && n ≤ high then
    some (digits, cs.drop width)
  else none

/-- A separator that has to come next. -/
def sign? (wanted : Char) (cs : List Char) : Option (List Char) :=
  match cs with
  | c :: rest => if c = wanted then some rest else none
  | [] => none

/-- The number of days in a month. -/
def daysIn (year month : Nat) : Nat :=
  if month = 2 then
    if year % 4 = 0 ∧ (year % 100 ≠ 0 ∨ year % 400 = 0) then 29 else 28
  else if month = 4 ∨ month = 6 ∨ month = 9 ∨ month = 11 then 30
  else 31

/-- A date, and what follows it. -/
def date? (cs : List Char) : Option (List Char × List Char) := do
  let (year, rest) ← fixed? 4 0 9999 cs
  let (month, rest) ← fixed? 2 1 12 (← sign? '-' rest)
  let (day, rest) ← fixed? 2 1 (daysIn (ofDigits 10 year) (ofDigits 10 month)) (← sign? '-' rest)
  return (year ++ '-' :: month ++ '-' :: day, rest)

/-- The digits of a fraction of a second that are kept: nine at most, without trailing
zeros, but at least one. -/
def keptDigits (digits : List Char) : List Char :=
  match (digits.take 9).reverse.dropWhile (· == '0') with
  | [] => ['0']
  | kept => kept.reverse

/-- A time of day, and what follows it. -/
def time? (d : Dialect) (cs : List Char) : Option (List Char × List Char) := do
  let (hour, rest) ← fixed? 2 0 23 cs
  let (minute, rest) ← fixed? 2 0 59 (← sign? ':' rest)
  match sign? ':' rest with
  | none => if d.shortTimes then return (hour ++ ':' :: minute, rest) else none
  | some rest =>
    let (second, rest) ← fixed? 2 0 60 rest
    let whole := hour ++ ':' :: minute ++ ':' :: second
    match rest with
    | '.' :: rest =>
      let digits := rest.takeWhile isDecimal
      if digits.isEmpty then none
      else return (whole ++ '.' :: keptDigits digits, rest.dropWhile isDecimal)
    | _ => return (whole, rest)

/-- The distance from universal time, at the end of a time. No distance at all has a
plus sign. -/
def offset? (cs : List Char) : Option (List Char) :=
  match cs with
  | [] => some []
  | ['Z'] | ['z'] => some ['Z']
  | sign :: rest =>
    if sign = '+' ∨ sign = '-' then do
      let (hour, rest) ← fixed? 2 0 23 rest
      let (minute, rest) ← fixed? 2 0 59 (← sign? ':' rest)
      let isNone := (hour ++ minute).all (· == '0')
      if !rest.isEmpty then none
      else return (if isNone then '+' else sign) :: hour ++ ':' :: minute
    else none

/-- A date, a time, or both. -/
def datetime? (d : Dialect) (cs : List Char) : Option (List Char) :=
  match date? cs with
  | some (date, []) => some date
  | some (date, separator :: rest) =>
    if separator = 'T' ∨ separator = 't' ∨ separator = ' ' then do
      let (time, rest) ← time? d rest
      let offset ← offset? rest
      return date ++ 'T' :: time ++ offset
    else none
  | none =>
    match time? d cs with
    | some (time, []) => some time
    | _ => none

/-! ## Any scalar without quotes -/

/-- The value of a run of scalar characters. -/
def scalarOf? (d : Dialect) (cs : List Char) : Option Value :=
  if cs == "true".toList then some (.bool true)
  else if cs == "false".toList then some (.bool false)
  else
    match datetime? d cs, integer? cs, float? d cs with
    | some s, _, _ => some (.datetime (String.ofList s))
    | none, some n, _ => some (.integer n)
    | none, none, some x => some (.float x)
    | none, none, none => none

/-- A scalar without quotes, and what follows it. A blank between a date and a
time belongs to it. -/
def bareScalar? (d : Dialect) (cs : List Char) : Option (Value × List Char) :=
  let run := cs.takeWhile isScalarChar
  let rest := cs.dropWhile isScalarChar
  let isDate := (date? run).any (·.2.isEmpty)
  match isDate, rest with
  | true, ' ' :: more =>
    if more.head?.any isDecimal then
      (scalarOf? d (run ++ ' ' :: more.takeWhile isScalarChar)).map
        (·, more.dropWhile isScalarChar)
    else (scalarOf? d run).map (·, rest)
  | _, _ => (scalarOf? d run).map (·, rest)

end MqttLink.Toml
