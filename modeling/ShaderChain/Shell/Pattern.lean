/-!
# Patterns

A pattern matches a text as a whole. A star stands for any characters, a
question mark for any one, and brackets for one among those listed; every other
character, and each one that is quoted, stands for itself.

What a pattern takes from the front of a text and what it leaves make up the
text (`append_of_dropFront?`).
-/

set_option autoImplicit false

namespace ShaderChain.Shell

/-- A text with each character marked that is quoted. -/
abbrev MarkedText := List (Char × Bool)

/-- What a part of a pattern stands for. -/
inductive PatternPart where
  | exactly (c : Char)
  | anyOne
  | anyMany
  | among (isNegated : Bool) (ranges : List (Char × Char))
deriving DecidableEq, Repr

/-- The parts of a pattern. -/
abbrev Pattern := List PatternPart

namespace Pattern

/-- The ranges in brackets, and what follows the closing one. -/
def ranges? : Nat → MarkedText → Option (List (Char × Char) × MarkedText)
  | 0, _ => none
  | fuel + 1, (first, _) :: ('-', false) :: (last, lastQuoted) :: rest =>
    if last == ']' && !lastQuoted then
      some ([(first, first), ('-', '-')], rest)
    else
      (ranges? fuel rest).map fun (ranges, rest) => ((first, last) :: ranges, rest)
  | _ + 1, (']', false) :: rest => some ([], rest)
  | fuel + 1, (c, _) :: rest =>
    (ranges? fuel rest).map fun (ranges, rest) => ((c, c) :: ranges, rest)
  | _ + 1, [] => none

/-- What stands in brackets, the first of which was read. A bracket that follows it stands for
itself. -/
def bracket? (text : MarkedText) : Option (PatternPart × MarkedText) :=
  let (isNegated, text) :=
    match text with
    | ('!', false) :: rest => (true, rest)
    | ('^', false) :: rest => (true, rest)
    | text => (false, text)
  match text with
  | (']', false) :: rest =>
    (ranges? (rest.length + 1) rest).map fun (ranges, rest) =>
      (.among isNegated ((']', ']') :: ranges), rest)
  | text =>
    (ranges? (text.length + 1) text).map fun (ranges, rest) => (.among isNegated ranges, rest)

/-- The pattern that a text writes. The number bounds how many parts it has. -/
def ofMarked : Nat → MarkedText → Pattern
  | 0, _ => []
  | _ + 1, [] => []
  | fuel + 1, (c, isQuoted) :: rest =>
    if isQuoted then .exactly c :: ofMarked fuel rest
    else if c == '*' then .anyMany :: ofMarked fuel rest
    else if c == '?' then .anyOne :: ofMarked fuel rest
    else if c == '[' then
      match bracket? rest with
      | some (part, rest) => part :: ofMarked fuel rest
      | none => .exactly c :: ofMarked fuel rest
    else .exactly c :: ofMarked fuel rest

/-- The pattern that a text writes. -/
def ofText (text : MarkedText) : Pattern := ofMarked text.length text

/-- Whether each character of the pattern stands for itself. -/
def isPlain (p : Pattern) : Bool :=
  p.all fun
    | .exactly _ => true
    | _ => false

end Pattern

/-- Whether a part that stands for one character stands for this one. -/
def PatternPart.admits (c : Char) : PatternPart → Bool
  | exactly own => own == c
  | anyOne => true
  | anyMany => true
  | among isNegated ranges => (ranges.any fun (low, high) => low ≤ c && c ≤ high) != isNegated

namespace Pattern

/-- Whether a pattern matches a text. -/
def fits (p : Pattern) (text : List Char) : Bool :=
  match p, text with
  | [], text => text.isEmpty
  | .anyMany :: rest, [] => fits rest []
  | .anyMany :: rest, c :: text => fits rest (c :: text) || fits (.anyMany :: rest) text
  | _ :: _, [] => false
  | part :: rest, c :: text => part.admits c && fits rest text
termination_by (p.length, text.length)

/-- The ways to split a text into a front and a rest, the shortest front first. -/
def splits : List Char → List (List Char × List Char)
  | [] => [([], [])]
  | c :: rest => ([], c :: rest) :: (splits rest).map fun (front, back) => (c :: front, back)

/-- The shortest or longest front of a text that a pattern matches, with what is left. -/
def dropFront? (p : Pattern) (longest : Bool) (text : List Char) : Option (List Char × List Char) :=
  let ways := if longest then (splits text).reverse else splits text
  ways.find? fun (front, _) => p.fits front

/-- The shortest or longest end of a text that a pattern matches, with what is before it. -/
def dropBack? (p : Pattern) (longest : Bool) (text : List Char) : Option (List Char × List Char) :=
  let ways := if longest then splits text else (splits text).reverse
  ways.find? fun (_, back) => p.fits back

/-- The parts of each way to split a text make up the text. -/
theorem append_of_mem_splits {text front back : List Char} (found : (front, back) ∈ splits text) :
    front ++ back = text := by
  induction text generalizing front with
  | nil => simp_all [splits]
  | cons c rest ih =>
    simp only [splits, List.mem_cons, Prod.mk.injEq, List.mem_map, Prod.exists] at found
    rcases found with ⟨rfl, rfl⟩ | ⟨front, back, found, rfl, rfl⟩
    · rfl
    · simp [ih found]

/-- What is taken from the front of a text and what is left make up the text. -/
theorem append_of_dropFront? {p : Pattern} {longest : Bool} {text front back : List Char}
    (found : p.dropFront? longest text = some (front, back)) : front ++ back = text := by
  have member := List.mem_of_find?_eq_some found
  cases longest with
  | true => exact append_of_mem_splits (List.mem_reverse.1 member)
  | false => exact append_of_mem_splits member

end Pattern

end ShaderChain.Shell
