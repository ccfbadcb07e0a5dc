import ShaderChain.Document.Basic
import ShaderChain.Number.Integer

/-!
# Numbers in JSON

A number without fraction and exponent that fits into a signed or an unsigned
64-bit integer is an integer; minus zero and every other number is a
floating-point number. Of the digits of such a number those count that fit into
64 bits.
-/

set_option autoImplicit false

namespace ShaderChain.Json

/-- The characters of a number, taken apart. -/
structure NumberText where
  negative : Bool
  whole : List Char
  fraction : List Char
  exponentNegative : Bool
  exponent : List Char

/-- The digits at the front. -/
def digitsOf (cs : List Char) : List Char × List Char := cs.span Char.isDigit

/-- The fraction at the front: no digits if there is no point, `none` if a point stands without
digits. -/
def fraction? : List Char → Option (List Char × List Char)
  | '.' :: rest => if (digitsOf rest).1.isEmpty then none else some (digitsOf rest)
  | cs => some ([], cs)

/-- The exponent at the front, with its sign: no digits if there is none. -/
def exponent? : List Char → Option (Bool × List Char × List Char)
  | c :: rest =>
    if c = 'e' || c = 'E' then
      let (negative, rest) :=
        match rest with
        | '-' :: more => (true, more)
        | '+' :: more => (false, more)
        | more => (false, more)
      if (digitsOf rest).1.isEmpty then none else some (negative, digitsOf rest)
    else some (false, [], c :: rest)
  | [] => some (false, [], [])

/-- Takes the number at the front apart. A zero is the only digit before the point if it is the
first one. -/
def numberText? (cs : List Char) : Option (NumberText × List Char) :=
  let (negative, cs) :=
    match cs with
    | '-' :: rest => (true, rest)
    | _ => (false, cs)
  let (whole, afterWhole) := digitsOf cs
  if whole.isEmpty || (whole.head? == some '0' && whole.length != 1) then none
  else
    match fraction? afterWhole with
    | none => none
    | some (fraction, afterFraction) =>
      match exponent? afterFraction with
      | none => none
      | some (exponentNegative, exponent, rest) =>
        some (⟨negative, whole, fraction, exponentNegative, exponent⟩, rest)

/-- The number written by decimal digits on top of `value`. -/
def decimalFrom (value : Nat) (digits : List Char) : Nat :=
  digits.foldl (fun n c => n * 10 + (c.toNat - 48)) value

/-- The number that every unsigned 64-bit integer is below, `2 ^ 64`. -/
def unsignedLimit : Nat := 18446744073709551616

/-- The size of the least signed 64-bit integer, `2 ^ 63`. -/
def signedLimit : Nat := 9223372036854775808

/-- Appends digits to `value` while the result stays below `2 ^ 64`; the second component
counts the digits appended, the third those left over. -/
def appendDigits (value used : Nat) : List Char → Nat × Nat × Nat
  | [] => (value, used, 0)
  | c :: rest =>
    let next := value * 10 + (c.toNat - 48)
    if next < unsignedLimit then appendDigits next (used + 1) rest
    else (value, used, rest.length + 1)

/-- The floating-point number. -/
def NumberText.real? (n : NumberText) : Option Binary64 :=
  let (whole, _, dropped) := appendDigits 0 0 n.whole
  let (digits, used, _) := appendDigits whole 0 n.fraction
  let written := decimalFrom 0 n.exponent
  if 2147483648 ≤ written then
    if digits ≠ 0 && !n.exponentNegative then none
    else some (.finite n.negative 0 Binary64.leastExponent)
  else
    let exponent : Int := if n.exponentNegative then -(written : Int) else written
    Binary64.ofParts? n.negative digits (dropped - used + exponent)

/-- The value of the number. -/
def NumberText.value (n : NumberText) : Document :=
  let magnitude := decimalFrom 0 n.whole
  let isWhole := n.fraction.isEmpty && n.exponent.isEmpty
  if isWhole && !n.negative && magnitude < unsignedLimit then .int magnitude
  else if isWhole && n.negative && 0 < magnitude && magnitude ≤ signedLimit then
    .int (-magnitude)
  else
    match n.real? with
    | some x => .real x
    | none => .undefined

end ShaderChain.Json
