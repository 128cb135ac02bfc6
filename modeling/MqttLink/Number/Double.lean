import MqttLink.Number.Decimal
/-!
# Double-precision numbers

A finite double is an integer of at most 53 bits times a power of two. Decimal
text is rounded to the nearest one, and the even one of two that are equally
near. Written out again, a double takes the fewest digits that round back to
it, and no exponent.
-/

namespace MqttLink.Number

/-- A double: `significand · 2 ^ exponent` with its sign, or one of the special values. -/
inductive Double where
  | finite (negative : Bool) (significand : Nat) (exponent : Int)
  | infinite (negative : Bool)
  | nan
deriving DecidableEq, Repr

namespace Double

/-- The least exponent of a double. -/
def minExponent : Int := -1074

/-- The greatest exponent of a double. -/
def maxExponent : Int := 971

/-- Significands are less than this power of two, and those of most doubles at
least half of it. -/
def significandBound : Nat := 9007199254740992

/-- A power with a positive or negative exponent, as a fraction. -/
def power (base : Nat) (exponent : Int) : Nat × Nat :=
  if exponent ≥ 0 then (Nat.pow base exponent.toNat, 1) else (1, Nat.pow base (-exponent).toNat)

/-- The fraction `numerator / denominator` times a power of two, as a fraction. -/
def scale (numerator denominator : Nat) (exponent : Int) : Nat × Nat :=
  let (p, q) := power 2 exponent
  (numerator * p, denominator * q)

/-- A quotient rounded to the nearest integer, halves to the even one. -/
def roundHalfEven (numerator denominator : Nat) : Nat :=
  let q := numerator / denominator
  let twice := 2 * (numerator % denominator)
  if twice > denominator ∨ (twice = denominator ∧ q % 2 = 1) then q + 1 else q

/-- The double nearest to a positive fraction. -/
def ofFraction (negative : Bool) (numerator denominator : Nat) : Double :=
  let guess : Int := (numerator.log2 : Int) - denominator.log2 - 53
  let tooFine :=
    let (n, d) := scale numerator denominator (-guess)
    n / d ≥ significandBound
  let exponent := max minExponent (if tooFine then guess + 1 else guess)
  let (n, d) := scale numerator denominator (-exponent)
  let significand := roundHalfEven n d
  let (significand, exponent) :=
    if significand = significandBound then (significandBound / 2, exponent + 1)
    else (significand, exponent)
  if exponent > maxExponent then .infinite negative else .finite negative significand exponent

/-- The double nearest to `digits · 10 ^ exponent`. Numbers far outside the range
of doubles are not worked out. -/
def ofDecimal (negative : Bool) (digits : Nat) (exponent : Int) : Double :=
  if digits = 0 then .finite negative 0 minExponent
  else
    let magnitude := (Nat.toDigits 10 digits).length + exponent
    if magnitude > 400 then .infinite negative
    else if magnitude < -400 then .finite negative 0 minExponent
    else
      let (p, q) := power 10 exponent
      ofFraction negative (digits * p) q

/-- Reads digits with a fraction and an exponent behind the sign: `12.5e-3`.
Digits may be missing on one side of the point, but not on both. -/
def ofUnsignedText? (negative : Bool) (cs : List Char) : Option Double :=
  let (whole, rest) := cs.span isDecimal
  let (fraction, rest) :=
    match rest with
    | '.' :: rest => rest.span isDecimal
    | _ => ([], rest)
  let exponent? : Option Int :=
    match rest with
    | [] => some 0
    | e :: rest =>
      if e = 'e' ∨ e = 'E' then
        let (negative, digits) := splitSign rest
        (ofDigits? 10 digits).map fun n => if negative then -(n : Int) else n
      else none
  match exponent? with
  | none => none
  | some exponent =>
    if whole.isEmpty && fraction.isEmpty then none
    else some (ofDecimal negative (ofDigits 10 (whole ++ fraction)) (exponent - fraction.length))

/-- Reads a decimal number, an infinity or a not-a-number, in any case. -/
def ofText? (s : String) : Option Double :=
  let (negative, rest) := splitSign s.toList
  let word := String.ofList (rest.map Char.toLower)
  if word == "inf" || word == "infinity" then some (.infinite negative)
  else if word == "nan" then some .nan
  else ofUnsignedText? negative rest

/-! ## Writing -/

/-- The number of decimal digits in front of the point of a fraction, less one;
negative for fractions below one. -/
def decimalExponent (numerator denominator : Nat) : Int :=
  let atLeast (k : Int) : Bool :=
    let (p, q) := power 10 k
    p * denominator ≤ numerator * q
  let guess : Int := (((numerator.log2 : Int) - denominator.log2) * 30103).fdiv 100000
  if atLeast (guess + 1) then guess + 1
  else if atLeast guess then guess
  else guess - 1

/-- The nearest multiple of `10 ^ place` to a positive double that still rounds
back to it, if there is one. -/
def nearestMultiple? (m : Nat) (exponent place : Int) : Option Nat :=
  -- The values that round to the double lie between `low` and `high` quarter steps.
  let low := if m = significandBound / 2 ∧ exponent > minExponent then 4 * m - 1 else 4 * m - 2
  let high := 4 * m + 2
  let (unit, grid) := power 10 place
  -- Everything is compared as a multiple of the quarter step, times `grid`.
  let (steps, per) := scale 1 1 (exponent - 2)
  let inside (k : Nat) : Bool :=
    let value := k * unit * per
    let least := low * steps * grid
    let most := high * steps * grid
    if m % 2 = 0 then least ≤ value && value ≤ most else least < value && value < most
  let exact := 4 * m * steps * grid
  let below := exact / (unit * per)
  let above := below + 1
  let aboveIsNearer := 2 * exact ≥ (below + above) * unit * per
  let candidates := if aboveIsNearer then [above, below] else [below, above]
  candidates.find? fun k => k != 0 && inside k

/-- The fewest digits that round back to a positive double, as a number and the
power of ten that it counts. -/
def shortest (significand : Nat) (exponent : Int) : Nat × Int :=
  let (n, d) := scale significand 1 exponent
  let top := decimalExponent n d
  let tries := (List.range 17).filterMap fun (count : Nat) =>
    let place : Int := top - count
    (nearestMultiple? significand exponent place).map (·, place)
  tries.headD (0, 0)

/-- Digits that count a power of ten, written with a point and no exponent. -/
def positional (digits : Nat) (place : Int) : String :=
  let cs := Nat.toDigits 10 digits
  if place ≥ 0 then String.ofList (cs ++ List.replicate place.toNat '0')
  else
    let after := (-place).toNat
    let padded := List.replicate (after + 1 - cs.length) '0' ++ cs
    let split := padded.length - after
    let fraction := padded.drop split |>.reverse.dropWhile (· == '0') |>.reverse
    let whole := String.ofList (padded.take split)
    if fraction.isEmpty then whole else whole ++ "." ++ String.ofList fraction

/-- The shortest text of a double. -/
def toText : Double → String
  | nan => "NaN"
  | infinite negative => if negative then "-inf" else "inf"
  | finite negative significand exponent =>
    let sign := if negative then "-" else ""
    if significand = 0 then sign ++ "0"
    else
      let (digits, place) := shortest significand exponent
      sign ++ positional digits place

/-! ## Conversions -/

/-- Whether a double differs from zero. -/
def isNonzero : Double → Bool
  | finite _ significand _ => significand != 0
  | _ => true

/-- A fraction rounded to the nearest integer, halves up. -/
def roundHalfUp (numerator denominator : Nat) : Nat :=
  (2 * numerator + denominator) / (2 * denominator)

/-- The nearest integer of 64 bits without a sign. What lies outside their range
goes to its nearer end, and what is no number to zero. -/
def toNat64 : Double → Nat
  | nan => 0
  | infinite negative => if negative then 0 else wordBound - 1
  | finite negative significand exponent =>
    if negative then 0
    else
      let (n, d) := scale significand 1 exponent
      min (roundHalfUp n d) (wordBound - 1)

end Double
end MqttLink.Number
