/-!
# Lines of a text

A line ends with a line feed, which may have one carriage return before it. The
text after the last line feed is a line too unless it is empty.
-/

set_option autoImplicit false

namespace ShaderChain.Text

/-- A line whose characters are `run`, latest first, without the carriage return
that belongs to its end. -/
def closeLine : List Char → List Char
  | '\r' :: run => run.reverse
  | run => run.reverse

/-- The lines of the characters, `run` being the part of the current line already
read, latest character first. -/
def linesFrom (run : List Char) : List Char → List (List Char)
  | [] => if run.isEmpty then [] else [run.reverse]
  | c :: rest =>
    if c = '\n' then closeLine run :: linesFrom [] rest else linesFrom (c :: run) rest

/-- The lines of the text. -/
def lines (s : String) : List String := (linesFrom [] s.toList).map String.ofList

end ShaderChain.Text
