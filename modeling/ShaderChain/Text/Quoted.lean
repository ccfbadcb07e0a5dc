import ShaderChain.Text.Hex
import ShaderChain.Text.Split
import ShaderChain.Text.Visibility

/-!
# Texts in quotes, for a reader of diagnostics

A text between double quotes in which quotes, backslashes and everything that
cannot be seen are escaped; characters are named by their number if they have
no escape of one letter.
-/

set_option autoImplicit false

namespace ShaderChain.Text

/-- The hexadecimal digits of a number, without zeros in front. -/
def hexNumber (n : Nat) : List Char := Nat.toDigits 16 n

/-- How a character stands in a quoted text. -/
def quotedChar (c : Char) : List Char :=
  if c = '\x00' then ['\\', '0']
  else if c = '\t' then ['\\', 't']
  else if c = '\r' then ['\\', 'r']
  else if c = '\n' then ['\\', 'n']
  else if c = '"' then ['\\', '"']
  else if c = '\\' then ['\\', '\\']
  else if isVisible c then [c]
  else ['\\', 'u', '\x7b'] ++ hexNumber c.toNat ++ ['\x7d']

/-- The text in quotes. -/
def quoted (s : String) : String := String.ofList ('"' :: (s.toList.flatMap quotedChar ++ ['"']))

/-- The items in brackets. -/
def bracketed (items : List String) : String := "[" ++ joined ", " items ++ "]"

/-- A record of named fields in braces, after the name of its type. -/
def recordText (name : String) (fields : List (String × String)) : String :=
  name ++ " \x7b " ++ joined ", " (fields.map fun field => field.1 ++ ": " ++ field.2) ++ " \x7d"

end ShaderChain.Text
