/-!
# UTF-8

Texts as bytes and bytes as texts. `decode?` accepts exactly the well-formed
encodings; `decodeLossy` reads any bytes and puts one replacement character for
every maximal part that begins like an encoded character and is not one.

Both read through `front`, which looks at one encoded character.
-/

set_option autoImplicit false

namespace ShaderChain

/-- The contents of a file or of a stream. -/
abbrev Bytes := List UInt8

namespace Text

/-- The bytes of the text. -/
def encode (s : String) : Bytes := s.toList.flatMap String.utf8EncodeChar

/-- Whether a byte lies between two bounds. -/
def within (bounds : Nat × Nat) (byte : UInt8) : Bool :=
  bounds.1 ≤ byte.toNat && byte.toNat ≤ bounds.2

/-- The value of the six low bits of a byte. -/
def payloadBits (byte : UInt8) : Nat := byte.toNat % 64

/-- The bounds for the second byte that a leading byte of three or four bytes sets. -/
def secondBounds (lead : Nat) : Nat × Nat :=
  if lead = 0xE0 then (0xA0, 0xBF)
  else if lead = 0xED then (0x80, 0x9F)
  else if lead = 0xF0 then (0x90, 0xBF)
  else if lead = 0xF4 then (0x80, 0x8F)
  else (0x80, 0xBF)

/-- The bounds of the bytes that follow a leading byte in the encoding of a character; `none` if
no character begins with it. -/
def followers? (lead : Nat) : Option (List (Nat × Nat)) :=
  if lead < 0x80 then some []
  else if lead < 0xC2 then none
  else if lead < 0xE0 then some [(0x80, 0xBF)]
  else if lead < 0xF0 then some [secondBounds lead, (0x80, 0xBF)]
  else if lead < 0xF5 then some [secondBounds lead, (0x80, 0xBF), (0x80, 0xBF)]
  else none

/-- How many bytes at the front lie within the bounds, one after the other. -/
def fitting : List (Nat × Nat) → Bytes → Nat
  | bounds :: more, byte :: rest => if within bounds byte then fitting more rest + 1 else 0
  | _, _ => 0

/-- The value of a leading byte with the bytes that follow it. -/
def valueOf (lead : Nat) : Bytes → Nat
  | [] => lead
  | [second] => lead % 32 * 64 + payloadBits second
  | [second, third] => (lead % 16 * 64 + payloadBits second) * 64 + payloadBits third
  | second :: third :: fourth :: _ =>
    ((lead % 8 * 64 + payloadBits second) * 64 + payloadBits third) * 64 + payloadBits fourth

/-- The character encoded at the front of `lead :: rest`, and the number of bytes of `rest`
that belong to it. Without a character the number counts the bytes of `rest` that still fit
one that begins with `lead`. -/
def front (lead : UInt8) (rest : Bytes) : Option Char × Nat :=
  match followers? lead.toNat with
  | none => (none, 0)
  | some bounds =>
    let count := fitting bounds rest
    if count = bounds.length then
      (some (Char.ofNat (valueOf lead.toNat (rest.take count))), count)
    else (none, count)

/-- The characters that the bytes encode; `none` if the encoding is not well-formed. -/
def decodeChars? : Bytes → Option (List Char)
  | [] => some []
  | lead :: rest =>
    match (front lead rest).1 with
    | none => none
    | some c => (decodeChars? (rest.drop (front lead rest).2)).map (c :: ·)
termination_by bytes => bytes.length
decreasing_by simp only [List.length_drop, List.length_cons]; omega

/-- The text that the bytes encode; `none` if the encoding is not well-formed. -/
def decode? (bytes : Bytes) : Option String := (decodeChars? bytes).map String.ofList

/-- The characters that the bytes encode, with a replacement character for each part that
encodes none. -/
def decodeLossyChars : Bytes → List Char
  | [] => []
  | lead :: rest =>
    (front lead rest).1.getD (Char.ofNat 0xFFFD) ::
      decodeLossyChars (rest.drop (front lead rest).2)
termination_by bytes => bytes.length
decreasing_by simp only [List.length_drop, List.length_cons]; omega

/-- The text that the bytes encode, with a replacement character for each part that encodes
none. -/
def decodeLossy (bytes : Bytes) : String := String.ofList (decodeLossyChars bytes)

end Text

end ShaderChain
