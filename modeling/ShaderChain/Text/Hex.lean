import ShaderChain.Text.Utf8

/-!
# Hexadecimal digits

The value of a digit, the digit of a value, and byte strings written with two
small digits for each byte.
-/

set_option autoImplicit false

namespace ShaderChain.Text

/-- The value of a hexadecimal digit of either case. -/
def hexValue? (c : Char) : Option Nat :=
  if '0' ≤ c && c ≤ '9' then some (c.toNat - 48)
  else if 'a' ≤ c && c ≤ 'f' then some (c.toNat - 87)
  else if 'A' ≤ c && c ≤ 'F' then some (c.toNat - 55)
  else none

/-- The small hexadecimal digit of a value below sixteen. -/
def hexDigit (n : Nat) : Char := Char.ofNat (if n < 10 then 48 + n else 87 + n)

/-- The capital hexadecimal digit of a value below sixteen. -/
def hexDigitUpper (n : Nat) : Char := Char.ofNat (if n < 10 then 48 + n else 55 + n)

/-- The value written by hexadecimal digits, most significant first, on top of `value`. -/
def hexNumberFrom? (value : Nat) : List Char → Option Nat
  | [] => some value
  | c :: rest =>
    match hexValue? c with
    | none => none
    | some digit => hexNumberFrom? (value * 16 + digit) rest

/-- The bytes, two digits each. -/
def toHex (bytes : Bytes) : String :=
  String.ofList (bytes.flatMap fun b => [hexDigit (b.toNat / 16), hexDigit (b.toNat % 16)])

/-- The bytes written by pairs of digits. -/
def ofHexChars? : List Char → Option Bytes
  | [] => some []
  | [_] => none
  | high :: low :: rest =>
    match hexValue? high, hexValue? low with
    | some h, some l => (ofHexChars? rest).map (UInt8.ofNat (h * 16 + l) :: ·)
    | _, _ => none

/-- The bytes written by the text. -/
def ofHex? (s : String) : Option Bytes := ofHexChars? s.toList

end ShaderChain.Text
