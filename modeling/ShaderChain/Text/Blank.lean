/-!
# Blank characters

The white space of Unicode, and the four operations the library performs with
it: stripping a text at its end or at both ends, asking whether a text is blank
throughout, and cutting a text into its maximal runs of non-blank characters.

All operations are defined on lists of characters, where they are
`List.dropWhile` and a single recursion, and lifted to strings.
-/

set_option autoImplicit false

namespace ShaderChain.Text

/-- The characters with the Unicode property `White_Space`. -/
def isBlank (c : Char) : Bool :=
  let n := c.toNat
  (9 ≤ n && n ≤ 13) || n == 0x20 || n == 0x85 || n == 0xA0 || n == 0x1680 ||
    (0x2000 ≤ n && n ≤ 0x200A) || n == 0x2028 || n == 0x2029 || n == 0x202F ||
    n == 0x205F || n == 0x3000

/-- The characters without the blanks at the end. -/
def stripEnd (cs : List Char) : List Char :=
  (cs.reverse.dropWhile isBlank).reverse

/-- The characters without the blanks at either end. -/
def strip (cs : List Char) : List Char :=
  stripEnd (cs.dropWhile isBlank)

/-- The maximal runs of characters that are not blank, `run` being the part of
the current one already read, latest character first. -/
def wordsFrom (run : List Char) : List Char → List (List Char)
  | [] => if run.isEmpty then [] else [run.reverse]
  | c :: rest =>
    if isBlank c then
      if run.isEmpty then wordsFrom [] rest else run.reverse :: wordsFrom [] rest
    else wordsFrom (c :: run) rest

/-- The text without the blanks at the end. -/
def trimEnd (s : String) : String := String.ofList (stripEnd s.toList)

/-- The text without the blanks at either end. -/
def trim (s : String) : String := String.ofList (strip s.toList)

/-- Whether the text has no character that is not blank. -/
def isBlankText (s : String) : Bool := s.toList.all isBlank

/-- The maximal runs of non-blank characters of the text, in order. -/
def words (s : String) : List String := (wordsFrom [] s.toList).map String.ofList

end ShaderChain.Text
