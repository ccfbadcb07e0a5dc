import ShaderChain.Text.Utf8

/-!
# Base64

The standard alphabet with padding. Three bytes become four characters, and the
reader accepts exactly the texts the writer makes: it refuses missing padding,
characters outside the alphabet and unused bits that are not zero.
-/

set_option autoImplicit false

namespace ShaderChain.Text.Base64

/-- The character of a six-bit value. -/
def digit (n : Nat) : Char :=
  if n < 26 then Char.ofNat (65 + n)
  else if n < 52 then Char.ofNat (71 + n)
  else if n < 62 then Char.ofNat (n - 4)
  else if n = 62 then '+'
  else '/'

/-- The six-bit value of a character of the alphabet. -/
def value? (c : Char) : Option Nat :=
  if 'A' ≤ c && c ≤ 'Z' then some (c.toNat - 65)
  else if 'a' ≤ c && c ≤ 'z' then some (c.toNat - 71)
  else if '0' ≤ c && c ≤ '9' then some (c.toNat + 4)
  else if c = '+' then some 62
  else if c = '/' then some 63
  else none

/-- The characters for the bytes. -/
def encodeChars : Bytes → List Char
  | [] => []
  | [a] =>
    let n := a.toNat * 16
    [digit (n / 64), digit (n % 64), '=', '=']
  | [a, b] =>
    let n := (a.toNat * 256 + b.toNat) * 4
    [digit (n / 4096), digit (n / 64 % 64), digit (n % 64), '=']
  | a :: b :: c :: rest =>
    let n := (a.toNat * 256 + b.toNat) * 256 + c.toNat
    digit (n / 262144) :: digit (n / 4096 % 64) :: digit (n / 64 % 64) :: digit (n % 64) ::
      encodeChars rest

/-- The text for the bytes. -/
def encode (bytes : Bytes) : String := String.ofList (encodeChars bytes)

/-- The bytes of the last group of four characters. -/
def decodeLast? (a b c d : Char) : Option Bytes :=
  match value? a, value? b with
  | some x, some y =>
    if c = '=' then
      if d = '=' && y % 16 == 0 then some [UInt8.ofNat ((x * 64 + y) / 16)] else none
    else
      match value? c with
      | none => none
      | some z =>
        let n := (x * 64 + y) * 64 + z
        if d = '=' then
          if z % 4 = 0 then some [UInt8.ofNat (n / 1024), UInt8.ofNat (n / 4 % 256)] else none
        else
          match value? d with
          | none => none
          | some w =>
            let m := n * 64 + w
            some [UInt8.ofNat (m / 65536), UInt8.ofNat (m / 256 % 256), UInt8.ofNat (m % 256)]
  | _, _ => none

/-- The bytes that the characters stand for. -/
def decodeChars? : List Char → Option Bytes
  | [] => some []
  | [a, b, c, d] => decodeLast? a b c d
  | a :: b :: c :: d :: rest =>
    match value? c, value? d, decodeLast? a b c d with
    | some _, some _, some bytes => (decodeChars? rest).map (bytes ++ ·)
    | _, _, _ => none
  | _ => none

/-- The bytes that the text stands for. -/
def decode? (s : String) : Option Bytes := decodeChars? s.toList

end ShaderChain.Text.Base64
