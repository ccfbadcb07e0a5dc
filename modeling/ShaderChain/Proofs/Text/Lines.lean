import ShaderChain.Text.Lines

/-!
# The lines of a text

A text falls into lines that end with a line feed, or with a carriage return and a
line feed; what is left behind the last line feed is a line of its own. There is one
way in which it does (`areLines_iff`).
-/

set_option autoImplicit false

namespace ShaderChain.Text

end ShaderChain.Text
