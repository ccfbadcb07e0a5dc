import ShaderChain.Document.Basic
import ShaderChain.Number.Integer
import ShaderChain.Toml.Lexical

/-!
# Numbers of TOML

Integers in four bases and floating-point numbers, with underscores between
digits. An integer outside the signed 64-bit range and a number that is too
large for a floating-point number are refused.
-/

set_option autoImplicit false

namespace ShaderChain.Toml

/-- Digits at the front, with single underscores between them; the underscores are left out. -/
def digits? (isDigit : Char → Bool) : List Char → Option (List Char × List Char)
  | [] => none
  | c :: rest =>
    if isDigit c then
      match rest with
      | '_' :: more =>
        (digits? isDigit more).map fun found => (c :: found.1, found.2)
      | more =>
        match digits? isDigit more with
        | some found => some (c :: found.1, found.2)
        | none => some ([c], more)
    else none

/-- A sign at the front: whether it is a minus, and the characters after it. -/
def sign (cs : List Char) : Bool × List Char :=
  match cs with
  | '-' :: rest => (true, rest)
  | '+' :: rest => (false, rest)
  | _ => (false, cs)

/-- Decimal digits at the front, a zero in front only if it is alone. -/
def wholeDigits? : Reader (List Char)
  | '0' :: rest => some (['0'], rest)
  | cs => digits? Char.isDigit cs

/-- The number that decimal digits write. -/
def decimal (digits : List Char) : Nat := digits.foldl (fun n c => n * 10 + (c.toNat - 48)) 0

/-- An integer in the signed 64-bit range. -/
def int64? (value : Int) : Option Document :=
  if Integer.least ≤ value && value ≤ Integer.greatest then some (.int value) else none

/-- An integer in base 16, 8 or 2, after its two marking characters. -/
def based? (base : Nat) : Reader Document := fun cs =>
  (digits? (fun c => decide ((Text.hexValue? c).getD base < base)) cs).bind fun found =>
    (int64? (found.1.foldl (fun n c => n * base + (Text.hexValue? c).getD 0) (0 : Nat))).map
      (·, found.2)

/-- The exponent at the front: its sign and digits. -/
def exponent? : Reader (Bool × List Char)
  | c :: rest =>
    if c = 'e' || c = 'E' then
      (digits? Char.isDigit (sign rest).2).map fun found =>
        (((sign rest).1, found.1), found.2)
    else none
  | [] => none

/-- The floating-point number of decimal digits before and after the point and an exponent. -/
def float? (negative : Bool) (whole fraction : List Char) (exponent : Bool × List Char) :
    Option Document :=
  let written : Int := decimal exponent.2
  (Binary64.ofDecimal? negative (decimal (whole ++ fraction))
    ((if exponent.1 then -written else written) - fraction.length)).map .real

/-- A decimal integer or a floating-point number at the front, after its sign. -/
def decimalNumber? (negative : Bool) (cs : List Char) : Option (Document × List Char) :=
  match wholeDigits? cs with
  | none => none
  | some (whole, rest) =>
    match exponent? rest with
    | some (exponent, rest) => (float? negative whole [] exponent).map (·, rest)
    | none =>
      match rest with
      | '.' :: more =>
        match digits? Char.isDigit more with
        | none => none
        | some (fraction, rest) =>
          match exponent? rest with
          | some (exponent, rest) => (float? negative whole fraction exponent).map (·, rest)
          | none => (float? negative whole fraction (false, [])).map (·, rest)
      | _ =>
        let magnitude : Int := decimal whole
        (int64? (if negative then -magnitude else magnitude)).map (·, rest)

/-- A number at the front. -/
def number? : Reader Document
  | '0' :: 'x' :: rest => based? 16 rest
  | '0' :: 'o' :: rest => based? 8 rest
  | '0' :: 'b' :: rest => based? 2 rest
  | cs =>
    let (negative, rest) := sign cs
    match rest with
    | 'i' :: 'n' :: 'f' :: more => some (.real (.infinite negative), more)
    | 'n' :: 'a' :: 'n' :: more => some (.real .nan, more)
    | _ => decimalNumber? negative rest

end ShaderChain.Toml
