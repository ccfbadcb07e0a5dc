/-!
# Cutting texts at a character

`splitFirst?` cuts at the first occurrence of a character, `splitEvery` at all
of them, and `joined` puts texts together with a separator.
-/

set_option autoImplicit false

namespace ShaderChain.Text

/-- The parts before and after the first occurrence of `mark`, if there is one. -/
def splitFirst? (mark : Char) : List Char → Option (List Char × List Char)
  | [] => none
  | c :: rest =>
    if c = mark then some ([], rest)
    else (splitFirst? mark rest).map fun parts => (c :: parts.1, parts.2)

/-- The parts between the occurrences of `mark`; there is always at least one. -/
def splitEvery (mark : Char) : List Char → List (List Char)
  | [] => [[]]
  | c :: rest =>
    if c = mark then [] :: splitEvery mark rest
    else
      match splitEvery mark rest with
      | [] => [[c]]
      | part :: parts => (c :: part) :: parts

/-- The texts one after the other with `separator` between neighbours. -/
def joined (separator : String) : List String → String
  | [] => ""
  | [one] => one
  | first :: second :: rest => first ++ separator ++ joined separator (second :: rest)

/-- The text followed by spaces up to `width` characters; a longer text stays as it is. -/
def padRight (width : Nat) (s : String) : String :=
  s ++ String.ofList (List.replicate (width - s.length) ' ')

/-- The ASCII capital letters made small; every other character is kept. -/
def lowerAscii (s : String) : String := String.ofList (s.toList.map Char.toLower)

/-- The cut of `s` after the first occurrence of `part` in it; `none` if there is none. -/
def upToFirst? (part : List Char) : List Char → Option (List Char)
  | [] => if part.isEmpty then some [] else none
  | c :: rest =>
    if part.isPrefixOf (c :: rest) then some part
    else (upToFirst? part rest).map (c :: ·)

/-- Every occurrence of `part`, read from the left, replaced by `replacement`; an empty `part`
occurs nowhere. The counter `skip` runs over the characters of an occurrence already replaced. -/
def replaceFrom (part replacement : List Char) (skip : Nat) : List Char → List Char
  | [] => []
  | c :: rest =>
    match skip with
    | skip + 1 => replaceFrom part replacement skip rest
    | 0 =>
      if !part.isEmpty && part.isPrefixOf (c :: rest) then
        replacement ++ replaceFrom part replacement (part.length - 1) rest
      else c :: replaceFrom part replacement 0 rest

/-- Every occurrence of the text `part` in `s` replaced by `replacement`. -/
def replace (part replacement s : String) : String :=
  String.ofList (replaceFrom part.toList replacement.toList 0 s.toList)

/-- The characters after all occurrences of `part` in front, one after the other; `fuel` bounds
their number. -/
def dropLeadingFrom (part : List Char) : Nat → List Char → List Char
  | 0, cs => cs
  | fuel + 1, cs =>
    if part.isPrefixOf cs then dropLeadingFrom part fuel (cs.drop part.length) else cs

/-- The text after all occurrences of `part` in front. -/
def dropLeading (part s : String) : String :=
  String.ofList (dropLeadingFrom part.toList s.length s.toList)

end ShaderChain.Text
