import ShaderChain.Toml.Lexical

/-!
# Writing strings and keys of TOML

Of the four ways to write a string the first that fits is taken: between double
quotes without an escape, between single quotes, the same over several lines,
and last with escapes for whatever needs one. A key is bare if it can be, then
as for strings of one line.
-/

set_option autoImplicit false

namespace ShaderChain.Toml

/-- The ways to write a string: escapes or not, one line or several. -/
inductive Style where
  | basic
  | literal
  | basicLines
  | literalLines
deriving DecidableEq, Repr

/-- Whether a character is a control character that no string holds as it is. -/
def isControl (c : Char) : Bool :=
  (c.toNat ≤ 0x1F && c != '\t' && c != '\n') || c.toNat == 0x7F

/-- Whether a character occurs three times or more in a row; `run` counts those just read. -/
def hasTriple (mark : Char) (run : Nat) : List Char → Bool
  | [] => false
  | c :: rest =>
    if c = mark then 2 ≤ run || hasTriple mark (run + 1) rest else hasTriple mark 0 rest

/-- The style for a value. -/
def valueStyle (cs : List Char) : Style :=
  let controlled := cs.any isControl
  let broken := cs.contains '\n'
  if !controlled && !broken && !cs.contains '\\' && !cs.contains '"' then .basic
  else if !controlled && !broken && !cs.contains '\'' then .literal
  else if !controlled && !cs.contains '\\' && !hasTriple '"' 0 cs then .basicLines
  else if !controlled && !hasTriple '\'' 0 cs then .literalLines
  else if broken then .basicLines
  else .basic

/-- The escape of a character by number, with four digits. -/
def numberEscape (c : Char) : List Char :=
  ['\\', 'u', '0', '0', Text.hexDigitUpper (c.toNat / 16), Text.hexDigitUpper (c.toNat % 16)]

/-- How a character other than a double quote stands between double quotes. -/
def escapeChar (severalLines : Bool) (c : Char) : List Char :=
  if c = '\x08' then ['\\', 'b']
  else if c = '\t' then ['\\', 't']
  else if c = '\n' then if severalLines then ['\n'] else ['\\', 'n']
  else if c = '\x0c' then ['\\', 'f']
  else if c = '\r' then ['\\', 'r']
  else if c = '\\' then ['\\', '\\']
  else if c.toNat ≤ 0x1F || c.toNat = 0x7F then numberEscape c
  else [c]

/-- The characters of a string of one line with escapes. -/
def escapeLine (cs : List Char) : List Char :=
  cs.flatMap fun c => if c = '"' then ['\\', '"'] else escapeChar false c

/-- The characters of a string over several lines with escapes: of the double quotes in a row
every third one is escaped, and `run` counts those written since the last escape. -/
def escapeLines (run : Nat) : List Char → List Char
  | [] => []
  | c :: rest =>
    if c = '"' then
      if run = 2 then '\\' :: '"' :: escapeLines 0 rest else '"' :: escapeLines (run + 1) rest
    else escapeChar true c ++ escapeLines 0 rest

/-- The line break after the opening quotes of a string that has line breaks itself. -/
def leadingBreak (cs : List Char) : List Char := if cs.contains '\n' then ['\n'] else []

/-- The characters in a given style, with their quotes. -/
def writeIn (style : Style) (cs : List Char) : List Char :=
  match style with
  | .basic => '"' :: (escapeLine cs ++ ['"'])
  | .literal => '\'' :: (cs ++ ['\''])
  | .basicLines => ['"', '"', '"'] ++ leadingBreak cs ++ escapeLines 0 cs ++ ['"', '"', '"']
  | .literalLines => ['\'', '\'', '\''] ++ leadingBreak cs ++ cs ++ ['\'', '\'', '\'']

/-- The style for a key that is not bare. -/
def keyStyle (cs : List Char) : Style :=
  let controlled := cs.any fun c => isControl c || c == '\n'
  if !controlled && !cs.contains '\\' && !cs.contains '"' then .basic
  else if !controlled && !cs.contains '\'' then .literal
  else .basic

/-- A value as it is written. -/
def quoteValue (s : String) : String :=
  String.ofList (writeIn (valueStyle s.toList) s.toList)

/-- Whether a key is written without quotes. -/
def isBare (cs : List Char) : Bool := !cs.isEmpty && cs.all isBareKey

/-- A key as it is written. -/
def quoteKey (s : String) : String :=
  if isBare s.toList then s else String.ofList (writeIn (keyStyle s.toList) s.toList)

end ShaderChain.Toml
