import ShaderChain.Number.Binary64
import ShaderChain.Number.Integer

/-!
# Shortest decimal text of a floating-point number

The text has the fewest significant digits that read back as the same number,
and of the decimals with that many digits the nearest one, the greater of two
equally near ones. It is positional: never an exponent, and no point without a
digit other than zero behind it.
-/

set_option autoImplicit false

namespace ShaderChain.Binary64

/-- The numbers that read back as a positive finite number, over a common denominator: the
number itself, and the two ends of the interval, which belong to it if `closed`. -/
structure Interval where
  low : Nat
  value : Nat
  high : Nat
  denominator : Nat
  closed : Bool

/-- The interval of a magnitude. Below a power of two the neighbour is half as far. -/
def Magnitude.interval (x : Magnitude) : Interval :=
  let quarter : Int := x.exponent - 2
  let factor := Nat.pow 2 quarter.toNat
  let below := if x.significand = leastSignificand ∧ x.exponent ≠ leastExponent then 1 else 2
  { low := (4 * x.significand - below) * factor
    value := 4 * x.significand * factor
    high := (4 * x.significand + 2) * factor
    denominator := Nat.pow 2 (-quarter).toNat
    closed := x.significand % 2 == 0 }

/-- Whether `decimal * 10 ^ exponent` lies in the interval. -/
def Interval.contains (i : Interval) (decimal : Nat) (exponent : Int) : Bool :=
  let point := decimal * Nat.pow 10 exponent.toNat * i.denominator
  let scale := Nat.pow 10 (-exponent).toNat
  if i.closed then i.low * scale ≤ point && point ≤ i.high * scale
  else i.low * scale < point && point < i.high * scale

/-- The count of zeros right after the point of a value below one. -/
def leadingZeros (numerator denominator : Nat) : Nat → Nat
  | 0 => 0
  | fuel + 1 =>
    if denominator ≤ numerator * 10 then 0
    else leadingZeros (numerator * 10) denominator fuel + 1

/-- The least `k` with the value below `10 ^ k`. -/
def Interval.magnitude (i : Interval) : Int :=
  if i.denominator ≤ i.value then (Nat.toDigits 10 (i.value / i.denominator)).length
  else -(leadingZeros i.value i.denominator 400 : Nat)

/-- The decimal with `count` digits that lies in the interval and is nearest to the value. The
power of ten at the upper end has one digit more and is written with one place less. -/
def Interval.decimal? (i : Interval) (count : Nat) : Option (Nat × Int) :=
  let exponent : Int := i.magnitude - count
  let numerator := i.value * Nat.pow 10 (-exponent).toNat
  let denominator := i.denominator * Nat.pow 10 exponent.toNat
  let below := numerator / denominator
  let nearer := if 2 * (numerator % denominator) < denominator then below else below + 1
  let farther := if nearer = below then below + 1 else below
  let found :=
    if i.contains nearer exponent then some nearer
    else if i.contains farther exponent then some farther
    else none
  found.map fun decimal =>
    if decimal = Nat.pow 10 count then (Nat.pow 10 (count - 1), exponent + 1)
    else (decimal, exponent)

/-- The first decimal found with `count` digits or more, trying `tries` counts. -/
def Interval.shortestFrom (i : Interval) (count : Nat) : Nat → Nat × Int
  | 0 => (i.value / i.denominator, 0)
  | tries + 1 => (i.decimal? count).getD (i.shortestFrom (count + 1) tries)

/-- The positional text of `digits * 10 ^ exponent`. -/
def positional (digits : List Char) (exponent : Int) : List Char :=
  if 0 ≤ exponent then digits ++ List.replicate exponent.toNat '0'
  else
    let places := exponent.natAbs
    if places < digits.length then
      digits.take (digits.length - places) ++ '.' :: digits.drop (digits.length - places)
    else '0' :: '.' :: (List.replicate (places - digits.length) '0' ++ digits)

/-- The shortest text of a magnitude. -/
def Magnitude.text (x : Magnitude) : String :=
  if x.significand = 0 then "0"
  else
    let shortest := x.interval.shortestFrom 1 17
    String.ofList (positional (Nat.toDigits 10 shortest.1) shortest.2)

/-- The shortest text of a number. -/
def text : Binary64 → String
  | .finite negative significand exponent =>
    (if negative then "-" else "") ++ Magnitude.text ⟨significand, exponent⟩
  | .infinite negative => if negative then "-inf" else "inf"
  | .nan => "NaN"

end ShaderChain.Binary64
