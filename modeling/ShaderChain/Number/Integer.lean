/-!
# Decimal integers of 64 bits

`Integer.read` reads an optional sign followed by decimal digits, from left to
right, and stops at the first thing that is wrong: a character that is no digit,
or a digit with which the number leaves the range of signed 64-bit integers.
-/

set_option autoImplicit false

namespace ShaderChain

/-- Why a text is not a signed 64-bit integer. -/
inductive IntegerFault where
  | empty
  | invalidDigit
  | tooLarge
  | tooSmall
deriving DecidableEq, Repr

namespace IntegerFault

/-- The fault in words. -/
def message : IntegerFault → String
  | empty => "cannot parse integer from empty string"
  | invalidDigit => "invalid digit found in string"
  | tooLarge => "number too large to fit in target type"
  | tooSmall => "number too small to fit in target type"

end IntegerFault

namespace Integer

/-- The value of a decimal digit. -/
def digitValue? (c : Char) : Option Nat :=
  if '0' ≤ c && c ≤ '9' then some (c.toNat - 48) else none

/-- The least signed 64-bit integer. -/
def least : Int := -9223372036854775808

/-- The greatest signed 64-bit integer. -/
def greatest : Int := 9223372036854775807

/-- The greatest unsigned 64-bit integer. -/
def greatestUnsigned : Int := 18446744073709551615

/-- The number with one more digit, away from zero on the side of its sign. -/
def extend (negative : Bool) (value : Int) (digit : Nat) : Int :=
  if negative then value * 10 - digit else value * 10 + digit

/-- Reads digits on top of `value`. -/
def readDigits (negative : Bool) (value : Int) : List Char → Except IntegerFault Int
  | [] => .ok value
  | c :: rest =>
    match digitValue? c with
    | none => .error .invalidDigit
    | some digit =>
      let next := extend negative value digit
      if least ≤ next && next ≤ greatest then readDigits negative next rest
      else .error (if negative then .tooSmall else .tooLarge)

/-- Reads an optional sign and at least one digit. -/
def readChars : List Char → Except IntegerFault Int
  | [] => .error .empty
  | '+' :: c :: rest => readDigits false 0 (c :: rest)
  | '-' :: c :: rest => readDigits true 0 (c :: rest)
  | c :: rest => readDigits false 0 (c :: rest)

/-- The signed 64-bit integer that the text writes in decimal. -/
def read (s : String) : Except IntegerFault Int64 := (readChars s.toList).map Int64.ofInt

/-- The decimal digits of a natural number. -/
def naturalText (n : Nat) : String := String.ofList (Nat.toDigits 10 n)

/-- The decimal text of an integer, with a sign only if it is negative. -/
def text (i : Int) : String :=
  if i < 0 then "-" ++ naturalText i.natAbs else naturalText i.natAbs

end Integer

end ShaderChain
