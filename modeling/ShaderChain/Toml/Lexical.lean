import ShaderChain.Text.Hex

/-!
# Strings, keys and blanks of TOML

A string is written in one of four ways: between double quotes, with escapes;
between single quotes, as it stands; and in both ways over several lines,
between tripled quotes. A key is a bare word or a string of one line.

Every reader takes the characters from the front and returns what is left.
-/

set_option autoImplicit false

namespace ShaderChain.Toml

/-- A reader of something at the front of the characters. -/
abbrev Reader (α : Type) := List Char → Option (α × List Char)

/-- Spaces and tabs. -/
def isSpace (c : Char) : Bool := c == ' ' || c == '\t'

/-- The characters without spaces and tabs in front. -/
def skipSpace (cs : List Char) : List Char := cs.dropWhile isSpace

/-- The characters after a line break at the front. -/
def newline? : List Char → Option (List Char)
  | '\n' :: rest => some rest
  | '\r' :: '\n' :: rest => some rest
  | _ => none

/-- Whether a character may stand in a string or comment as it is: a tab, or any character that
is no control character. -/
def isPlain (c : Char) : Bool := c == '\t' || (0x20 ≤ c.toNat && c.toNat != 0x7F)

/-- The characters after a comment at the front, up to the end of its line. -/
def skipComment : List Char → List Char
  | '#' :: rest => rest.dropWhile isPlain
  | cs => cs

/-- The characters after the end of a line: blanks, a comment, and a line break unless the text
ends. -/
def endOfLine? (cs : List Char) : Option (List Char) :=
  match skipComment (skipSpace cs) with
  | [] => some []
  | rest => newline? rest

/-- The characters after blanks, comments and line breaks. -/
def skipLines : Nat → List Char → List Char
  | 0, cs => cs
  | fuel + 1, cs =>
    let rest := skipComment (skipSpace cs)
    match newline? rest with
    | some more => skipLines fuel more
    | none => rest

/-- The character of an escape of one letter. -/
def escaped? (c : Char) : Option Char :=
  if c = '"' || c = '\\' then some c
  else if c = 'b' then some '\x08'
  else if c = 'f' then some '\x0c'
  else if c = 'n' then some '\n'
  else if c = 'r' then some '\r'
  else if c = 't' then some '\t'
  else none

/-- The character with a given number, if there is one. -/
def scalar? (n : Nat) : Option Char :=
  if n < 0xD800 || (0xE000 ≤ n && n < 0x110000) then some (Char.ofNat n) else none

/-- The character of an escape by number, with the given count of hexadecimal digits. -/
def numbered? (count : Nat) (cs : List Char) : Option (Char × List Char) :=
  if (cs.take count).length = count then
    ((Text.hexNumberFrom? 0 (cs.take count)).bind scalar?).map (·, cs.drop count)
  else none

/-- The character of an escape, after its backslash. -/
def escape? : Reader Char
  | 'u' :: rest => numbered? 4 rest
  | 'U' :: rest => numbered? 8 rest
  | c :: rest => (escaped? c).map (·, rest)
  | [] => none

/-- A string between double quotes, up to its closing quote. -/
def basicBody? : Nat → Reader (List Char)
  | 0, _ => none
  | _, [] => none
  | _, '"' :: rest => some ([], rest)
  | fuel + 1, '\\' :: rest =>
    match escape? rest with
    | none => none
    | some (c, more) => (basicBody? fuel more).map fun found => (c :: found.1, found.2)
  | fuel + 1, c :: rest =>
    if isPlain c then (basicBody? fuel rest).map fun found => (c :: found.1, found.2) else none

/-- A string between single quotes, up to its closing quote. -/
def literalBody? : Reader (List Char)
  | [] => none
  | '\'' :: rest => some ([], rest)
  | c :: rest =>
    if isPlain c then (literalBody? rest).map fun found => (c :: found.1, found.2) else none

/-- How many times `mark` stands at the front, counted up to five. -/
def runOf (mark : Char) (cs : List Char) : Nat := ((cs.take 5).takeWhile (· == mark)).length

/-- The end of a string over several lines: of a run of quotes the last three close it, and up
to two before them belong to it. -/
def closing? (mark : Char) (cs : List Char) : Option (List Char × List Char) :=
  let count := runOf mark cs
  if 3 ≤ count then some (List.replicate (count - 3) mark, cs.drop count) else none

/-- The characters after a backslash at the end of a line, its line break, and all white space
that follows. -/
def lineContinuation? (cs : List Char) : Option (List Char) :=
  (newline? (skipSpace cs)).map fun rest =>
    rest.dropWhile fun c => isSpace c || c == '\n' || c == '\r'

/-- Whether every carriage return among the characters has a line feed after it. -/
def returnsPaired : List Char → Bool
  | [] => true
  | '\r' :: '\n' :: rest => returnsPaired rest
  | '\r' :: _ => false
  | _ :: rest => returnsPaired rest

/-- A string between tripled double quotes, up to the closing ones. -/
def basicLines? : Nat → Reader (List Char)
  | 0, _ => none
  | _, [] => none
  | fuel + 1, '"' :: rest =>
    match closing? '"' ('"' :: rest) with
    | some found => some found
    | none => (basicLines? fuel rest).map fun found => ('"' :: found.1, found.2)
  | fuel + 1, '\\' :: rest =>
    match lineContinuation? rest with
    | some more =>
      if returnsPaired (rest.take (rest.length - more.length)) then basicLines? fuel more else none
    | none =>
      match escape? rest with
      | none => none
      | some (c, more) => (basicLines? fuel more).map fun found => (c :: found.1, found.2)
  | fuel + 1, c :: rest =>
    match newline? (c :: rest) with
    | some more => (basicLines? fuel more).map fun found => ('\n' :: found.1, found.2)
    | none =>
      if isPlain c then (basicLines? fuel rest).map fun found => (c :: found.1, found.2) else none

/-- A string between tripled single quotes, up to the closing ones. -/
def literalLines? : Nat → Reader (List Char)
  | 0, _ => none
  | _, [] => none
  | fuel + 1, '\'' :: rest =>
    match closing? '\'' ('\'' :: rest) with
    | some found => some found
    | none => (literalLines? fuel rest).map fun found => ('\'' :: found.1, found.2)
  | fuel + 1, c :: rest =>
    match newline? (c :: rest) with
    | some more => (literalLines? fuel more).map fun found => ('\n' :: found.1, found.2)
    | none =>
      if isPlain c then (literalLines? fuel rest).map fun found => (c :: found.1, found.2)
      else none

/-- The characters without a line break in front. -/
def skipNewline (cs : List Char) : List Char := (newline? cs).getD cs

/-- A string of any of the four ways at the front. -/
def string? : Reader String
  | '"' :: '"' :: '"' :: rest =>
    (basicLines? (rest.length + 1) (skipNewline rest)).map fun found =>
      (String.ofList found.1, found.2)
  | '"' :: rest =>
    (basicBody? (rest.length + 1) rest).map fun found => (String.ofList found.1, found.2)
  | '\'' :: '\'' :: '\'' :: rest =>
    (literalLines? (rest.length + 1) (skipNewline rest)).map fun found =>
      (String.ofList found.1, found.2)
  | '\'' :: rest => (literalBody? rest).map fun found => (String.ofList found.1, found.2)
  | _ => none

/-- Whether a character may stand in a bare key. -/
def isBareKey (c : Char) : Bool := c.isAlphanum || c == '_' || c == '-'

/-- One part of a key at the front. -/
def simpleKey? : Reader String
  | '"' :: rest =>
    (basicBody? (rest.length + 1) rest).map fun found => (String.ofList found.1, found.2)
  | '\'' :: rest => (literalBody? rest).map fun found => (String.ofList found.1, found.2)
  | cs =>
    if (cs.takeWhile isBareKey).isEmpty then none
    else some (String.ofList (cs.takeWhile isBareKey), cs.dropWhile isBareKey)

/-- A key at the front: one part or several with points between them, with blanks around each
part. -/
def key? : Nat → Reader (List String)
  | 0, _ => none
  | fuel + 1, cs =>
    match simpleKey? (skipSpace cs) with
    | none => none
    | some (part, rest) =>
      match skipSpace rest with
      | '.' :: more => (key? fuel more).map fun found => (part :: found.1, found.2)
      | more => some ([part], more)

end ShaderChain.Toml
