import ShaderChain.Document.Basic
import ShaderChain.Number.Shortest
import ShaderChain.Text.Hex

/-!
# Writing JSON

Two layouts: `compact` without any white space, and `pretty` with one item or
entry per line, indented by two spaces for each level. Empty lists and tables
are written without a line break in both.
-/

set_option autoImplicit false

namespace ShaderChain.Json

/-- How a character stands in a string. Characters beyond ASCII stand for themselves. -/
def escapeChar (c : Char) : List Char :=
  if c = '"' then ['\\', '"']
  else if c = '\\' then ['\\', '\\']
  else if c = '\x08' then ['\\', 'b']
  else if c = '\x0c' then ['\\', 'f']
  else if c = '\n' then ['\\', 'n']
  else if c = '\r' then ['\\', 'r']
  else if c = '\t' then ['\\', 't']
  else if c.toNat < 0x20 then
    ['\\', 'u', '0', '0', Text.hexDigit (c.toNat / 16), Text.hexDigit (c.toNat % 16)]
  else [c]

/-- A text in quotes. -/
def quote (s : String) : String :=
  String.ofList ('"' :: (s.toList.flatMap escapeChar ++ ['"']))

/-- A number that is not an integer; one that JSON cannot write is `null`. -/
def realText : Binary64 → String
  | .finite negative significand exponent => (Binary64.finite negative significand exponent).text
  | _ => "null"

/-- A line break followed by the indentation of a level. -/
def newline (level : Nat) : String :=
  "\n" ++ String.ofList (List.replicate (2 * level) ' ')

mutual

/-- The text of a document; with `some level`, laid out in lines at that level. -/
def render (layout : Option Nat) : Document → String
  | .null => "null"
  | .bool true => "true"
  | .bool false => "false"
  | .int value => Integer.text value
  | .real value => realText value
  | .text value => quote value
  | .list [] => "[]"
  | .list (item :: items) => "[" ++ renderItems layout (item :: items)
  | .table [] => "\x7b\x7d"
  | .table (entry :: entries) => "\x7b" ++ renderEntries layout (entry :: entries)
  | .undefined => "null"

/-- The items of a list, from the first of them up to the closing bracket. -/
def renderItems (layout : Option Nat) : List Document → String
  | [] => (layout.map newline).getD "" ++ "]"
  | item :: rest =>
    let inner := layout.map (· + 1)
    (inner.map newline).getD "" ++ render inner item ++ (if rest.isEmpty then "" else ",") ++
      renderItems layout rest

/-- The entries of a table, from the first of them up to the closing brace. -/
def renderEntries (layout : Option Nat) : List (String × Document) → String
  | [] => (layout.map newline).getD "" ++ "\x7d"
  | entry :: rest =>
    let inner := layout.map (· + 1)
    (inner.map newline).getD "" ++ quote entry.1 ++ (if layout.isSome then ": " else ":") ++
      render inner entry.2 ++ (if rest.isEmpty then "" else ",") ++ renderEntries layout rest

end

/-- The document in lines. -/
def pretty (d : Document) : String := render (some 0) d

/-- The document on one line. -/
def compact (d : Document) : String := render none d

end ShaderChain.Json
