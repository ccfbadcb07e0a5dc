/-!
# Binary floating-point numbers of 64 bits

A finite number is a significand below `2 ^ 53` times a power of two, kept
exactly; every rounding goes to the nearest such number, a tie to the even
significand. Numbers come from decimal notation in one of two ways:

* `ofDecimal?` rounds the written value once;
* `ofParts?` rounds the digits that fit into 64 bits, rounds the power of ten,
  and rounds their product or quotient.

Both answer `none` when the number is too large.
-/

set_option autoImplicit false

namespace ShaderChain

/-- A floating-point number: a sign with a significand and the exponent of its power of two,
an infinity, or no number. -/
inductive Binary64 where
  | finite (negative : Bool) (significand : Nat) (exponent : Int)
  | infinite (negative : Bool)
  | nan
deriving DecidableEq, Repr

namespace Binary64

/-- A positive number as a significand and the exponent of its power of two. -/
structure Magnitude where
  significand : Nat
  exponent : Int
deriving DecidableEq, Repr

/-- The least exponent of a power of two. -/
def leastExponent : Int := -1074

/-- The least significand of a number that is not close to zero, two to the power of 52. -/
def leastSignificand : Nat := 4503599627370496

/-- The number that every significand is below, two to the power of 53. -/
def significandLimit : Nat := 9007199254740992

/-- The magnitude zero. -/
def Magnitude.zero : Magnitude := ⟨0, leastExponent⟩

/-- The numerator of a magnitude over `Magnitude.denominator`. -/
def Magnitude.numerator (x : Magnitude) : Nat := x.significand * Nat.pow 2 x.exponent.toNat

/-- The power of two under which `Magnitude.numerator` stands. -/
def Magnitude.denominator (x : Magnitude) : Nat := Nat.pow 2 (-x.exponent).toNat

/-- The quotient of two natural numbers rounded to the nearest one, a tie to the even one. -/
def nearestQuotient (numerator denominator : Nat) : Nat :=
  let quotient := numerator / denominator
  let doubled := 2 * (numerator % denominator)
  if doubled < denominator then quotient
  else if denominator < doubled then quotient + 1
  else quotient + quotient % 2

/-- The quotient rounded to a multiple of the given power of two, counted in it. -/
def nearestMultiple (numerator denominator : Nat) (exponent : Int) : Nat :=
  nearestQuotient (numerator * Nat.pow 2 (-exponent).toNat)
    (denominator * Nat.pow 2 exponent.toNat)

/-- The magnitude nearest to a quotient of natural numbers, `none` if it is too large. -/
def round? (numerator denominator : Nat) : Option Magnitude :=
  if numerator = 0 then some .zero
  else
    let guess : Int := (numerator.log2 : Int) - denominator.log2 - 52
    let low := numerator * Nat.pow 2 (-guess).toNat <
      leastSignificand * (denominator * Nat.pow 2 guess.toNat)
    let exponent := max (if low then guess - 1 else guess) leastExponent
    let significand := nearestMultiple numerator denominator exponent
    let result : Magnitude :=
      if significand = significandLimit then ⟨leastSignificand, exponent + 1⟩
      else ⟨significand, exponent⟩
    if result.exponent ≤ 971 then some result else none

/-- The magnitude nearest to `digits * 10 ^ exponent`, `none` if it is too large. An exponent
beyond what the number of digits can balance is settled without computing the power. -/
def Magnitude.ofDecimal? (digits : Nat) (exponent : Int) : Option Magnitude :=
  let size : Int := (Nat.toDigits 10 digits).length
  if digits = 0 then some .zero
  else if size + exponent > 400 then none
  else if size + exponent < -400 then some .zero
  else round? (digits * Nat.pow 10 exponent.toNat) (Nat.pow 10 (-exponent).toNat)

/-- The number with the given sign nearest to `digits * 10 ^ exponent`. -/
def ofDecimal? (negative : Bool) (digits : Nat) (exponent : Int) : Option Binary64 :=
  (Magnitude.ofDecimal? digits exponent).map fun x =>
    .finite negative x.significand x.exponent

/-- The product of two magnitudes. -/
def Magnitude.mul? (x y : Magnitude) : Option Magnitude :=
  round? (x.numerator * y.numerator) (x.denominator * y.denominator)

/-- The quotient of a magnitude by one that is not zero. -/
def Magnitude.div? (x y : Magnitude) : Option Magnitude :=
  round? (x.numerator * y.denominator) (x.denominator * y.numerator)

/-- The magnitude nearest to a power of ten with a natural exponent. -/
def powerOfTen? (exponent : Nat) : Option Magnitude := Magnitude.ofDecimal? 1 exponent

/-- A magnitude scaled by a power of ten. A negative exponent beyond 308 is taken in steps of
308, and `steps` of them reduce every magnitude of 64-bit digits to zero. -/
def Magnitude.scale? (x : Magnitude) (exponent : Int) : Nat → Option Magnitude
  | 0 => some .zero
  | steps + 1 =>
    if exponent.natAbs ≤ 308 then
      (powerOfTen? exponent.natAbs).bind fun power =>
        if 0 ≤ exponent then x.mul? power else x.div? power
    else if x.significand = 0 then some .zero
    else if 0 ≤ exponent then none
    else
      (powerOfTen? 308).bind fun power =>
        (x.div? power).bind fun y => y.scale? (exponent + 308) steps

/-- The number with the given sign from digits below `2 ^ 64` and a power of ten, each rounded
before they are put together. -/
def ofParts? (negative : Bool) (digits : Nat) (exponent : Int) : Option Binary64 :=
  (round? digits 1).bind fun x =>
    (x.scale? exponent 4).map fun y => .finite negative y.significand y.exponent

end Binary64

end ShaderChain
