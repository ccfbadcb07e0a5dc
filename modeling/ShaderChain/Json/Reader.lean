import ShaderChain.Json.Number
import ShaderChain.Text.Hex

/-!
# Reading JSON

`Json.read?` gives the document of a JSON text, the whole text and nothing else.
Lists and tables nested more than 127 deep have no value, but may stand where
no value is asked for.

The readers take the characters from the front and return what is left. The
recursion goes down with a count that starts at the number of characters, and
so do the loops over items and entries inside one level.
-/

set_option autoImplicit false

namespace ShaderChain.Json

/-- A reader of something at the front of the characters. -/
abbrev Reader (α : Type) := List Char → Option (α × List Char)

/-- The characters without white space in front. -/
def skipSpace (cs : List Char) : List Char :=
  cs.dropWhile fun c => c == ' ' || c == '\n' || c == '\r' || c == '\t'

/-- The value of four hexadecimal digits at the front. -/
def hex4? : Reader Nat
  | a :: b :: c :: d :: rest => (Text.hexNumberFrom? 0 [a, b, c, d]).map (·, rest)
  | _ => none

/-- The character of an escape of one letter. -/
def escaped? (c : Char) : Option Char :=
  if c = '"' || c = '\\' || c = '/' then some c
  else if c = 'b' then some '\x08'
  else if c = 'f' then some '\x0c'
  else if c = 'n' then some '\n'
  else if c = 'r' then some '\r'
  else if c = 't' then some '\t'
  else none

/-- The character of an escape by number, after its `u`: the number alone, or with a second one
for a character beyond the first plane. `some none` stands for half of such a pair. -/
def unicodeEscape? (cs : List Char) : Option (Option Char × List Char) :=
  match hex4? cs with
  | none => none
  | some (n, rest) =>
    if 0xD800 ≤ n && n < 0xDC00 then
      match rest with
      | '\\' :: 'u' :: more =>
        match hex4? more with
        | none => none
        | some (m, after) =>
          if 0xDC00 ≤ m && m < 0xE000 then
            some (some (Char.ofNat (0x10000 + (n - 0xD800) * 0x400 + (m - 0xDC00))), after)
          else some (none, after)
      | _ => some (none, rest)
    else if 0xDC00 ≤ n && n < 0xE000 then some (none, rest)
    else some (some (Char.ofNat n), rest)

/-- The characters of a string up to its closing quote. The inner `none` stands for a string
with half a pair in it. -/
def stringBody? (fuel : Nat) (cs : List Char) : Option (Option (List Char) × List Char) :=
  match fuel, cs with
  | 0, _ => none
  | _, [] => none
  | _, '"' :: rest => some (some [], rest)
  | fuel + 1, '\\' :: 'u' :: rest =>
    match unicodeEscape? rest with
    | none => none
    | some (c, more) =>
      (stringBody? fuel more).map fun found =>
        (c.bind fun c => found.1.map (c :: ·), found.2)
  | fuel + 1, '\\' :: c :: rest =>
    match escaped? c with
    | none => none
    | some c => (stringBody? fuel rest).map fun found => (found.1.map (c :: ·), found.2)
  | fuel + 1, c :: rest =>
    if c.toNat < 0x20 || c = '\\' then none
    else (stringBody? fuel rest).map fun found => (found.1.map (c :: ·), found.2)

/-- A string at the front, after its opening quote. -/
def string? (cs : List Char) : Option (Option String × List Char) :=
  (stringBody? (cs.length + 1) cs).map fun found => (found.1.map String.ofList, found.2)

/-- The items of a list up to its closing bracket, the first one being due. -/
def items? (value : Reader Document) : Nat → Reader (List Document)
  | 0, _ => none
  | fuel + 1, cs =>
    match value cs with
    | none => none
    | some (item, rest) =>
      match skipSpace rest with
      | ',' :: more =>
        (items? value fuel more).map fun found => (item :: found.1, found.2)
      | ']' :: more => some ([item], more)
      | _ => none

/-- The entries of a table up to its closing brace, the first one being due. The name of an
entry is missing if it has half a pair in it. -/
def entries? (value : Reader Document) : Nat → Reader (List (Option String × Document))
  | 0, _ => none
  | fuel + 1, cs =>
    match skipSpace cs with
    | '"' :: rest =>
      match string? rest with
      | none => none
      | some (name, rest) =>
        match skipSpace rest with
        | ':' :: rest =>
          match value rest with
          | none => none
          | some (item, rest) =>
            match skipSpace rest with
            | ',' :: more =>
              (entries? value fuel more).map fun found => ((name, item) :: found.1, found.2)
            | '}' :: more => some ([(name, item)], more)
            | _ => none
        | _ => none
    | _ => none

/-- The table of entries that all have names. -/
def tableOf (entries : List (Option String × Document)) : Document :=
  match entries.mapM fun entry => entry.1.map fun name => (name, entry.2) with
  | some entries => .table entries
  | none => .undefined

/-- The characters after a given word at the front. -/
def afterWord? (word : List Char) (cs : List Char) : Option (List Char) :=
  if word.isPrefixOf cs then some (cs.drop word.length) else none

/-- A list or table, which has a value only where the nesting may go deeper. -/
def nested (depth : Nat) (d : Document) : Document := if depth = 0 then .undefined else d

/-- A value at the front, inside of which lists and tables may be nested `depth` deep. -/
def value? : Nat → Nat → Reader Document
  | 0, _, _ => none
  | fuel + 1, depth, cs =>
    match skipSpace cs with
    | '"' :: rest =>
      (string? rest).map fun found =>
        ((found.1.map Document.text).getD .undefined, found.2)
    | '[' :: rest =>
      match skipSpace rest with
      | ']' :: more => some (nested depth (.list []), more)
      | _ =>
        (items? (value? fuel (depth - 1)) (rest.length + 1) rest).map fun found =>
          (nested depth (.list found.1), found.2)
    | '{' :: rest =>
      match skipSpace rest with
      | '}' :: more => some (nested depth (.table []), more)
      | _ =>
        (entries? (value? fuel (depth - 1)) (rest.length + 1) rest).map fun found =>
          (nested depth (tableOf found.1), found.2)
    | 'n' :: rest => (afterWord? ['u', 'l', 'l'] rest).map (.null, ·)
    | 't' :: rest => (afterWord? ['r', 'u', 'e'] rest).map (.bool true, ·)
    | 'f' :: rest => (afterWord? ['a', 'l', 's', 'e'] rest).map (.bool false, ·)
    | rest => (numberText? rest).map fun found => (found.1.value, found.2)

/-- How deep lists and tables may be nested. -/
def depthLimit : Nat := 127

/-- The document of a JSON text. -/
def read? (s : String) : Option Document :=
  match value? (s.toList.length + 1) depthLimit s.toList with
  | some (d, rest) => if (skipSpace rest).isEmpty then some d else none
  | none => none

end ShaderChain.Json
