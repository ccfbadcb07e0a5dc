import ShaderChain.Shell.Session

/-!
# Conditions

What the words of a test say: about texts, numbers and files, with negation,
conjunction and disjunction. A word that stands alone says that it is not empty.
-/

set_option autoImplicit false

namespace ShaderChain.Shell

/-- Why a condition says nothing. -/
inductive ConditionFault where
  | illegalNumber (word : List Char)
  | unexpected (word : List Char)
  | unclosed
deriving DecidableEq

/-- What a fault is reported as. -/
def ConditionFault.text : ConditionFault → List Char
  | illegalNumber word => ofText "Illegal number: " ++ word
  | unexpected word => word ++ ofText ": unexpected operator"
  | unclosed => ofText "closing paren expected"

/-- The value of a condition, with the words after it. -/
abbrev Condition := Except ConditionFault (Bool × List (List Char))

namespace Condition

/-- The number that a word writes. -/
def number (word : List Char) : Except ConditionFault Int :=
  match Integer.readChars (word.filter (· != ' ')) with
  | .ok n => .ok n
  | .error _ => .error (.illegalNumber word)

/-- The comparisons of numbers. -/
def comparisons : List (String × (Int → Int → Bool)) :=
  [("-eq", fun a b => a == b), ("-ne", fun a b => a != b), ("-lt", fun a b => a < b),
   ("-le", fun a b => a ≤ b), ("-gt", fun a b => a > b), ("-ge", fun a b => a ≥ b)]

/-- What an operator between two words says. -/
def between? (operator first second : List Char) : Option (Except ConditionFault Bool) :=
  if operator == ['='] then some (.ok (first == second))
  else if operator == ['!', '='] then some (.ok (first != second))
  else
    (comparisons.lookup (String.ofList operator)).map fun compare => do
      return compare (← number first) (← number second)

/-- What an operator before a word says. -/
def before? (s : Session) (operator word : List Char) : Option Bool :=
  let status := s.files.status s.directory (pathOf word)
  match operator with
  | ['-', 'n'] => some (! word.isEmpty)
  | ['-', 'z'] => some word.isEmpty
  | ['-', 'e'] => some status.isOk
  | ['-', 'f'] => some (s.files.isFile s.directory (pathOf word))
  | ['-', 'd'] => some (s.files.isDirectory s.directory (pathOf word))
  | ['-', 'r'] => some status.isOk
  | ['-', 'w'] => some status.isOk
  | ['-', 'x'] =>
    match status with
    | .ok (.file _ executable) => some executable
    | .ok _ => some true
    | .error _ => some false
  | ['-', 's'] =>
    match status with
    | .ok (.file content _) => some (! content.isEmpty)
    | .ok _ => some true
    | .error _ => some false
  | ['-', 'h'] => some false
  | ['-', 'L'] => some false
  | _ => none

mutual

/-- Conditions one of which has to hold. -/
def any (s : Session) : Nat → List (List Char) → Condition
  | 0, words => .ok (false, words)
  | fuel + 1, words => do
    let (first, rest) ← all s fuel words
    match rest with
    | ['-', 'o'] :: rest =>
      let (second, rest) ← any s fuel rest
      return (first || second, rest)
    | rest => return (first, rest)

/-- Conditions all of which have to hold. -/
def all (s : Session) : Nat → List (List Char) → Condition
  | 0, words => .ok (false, words)
  | fuel + 1, words => do
    let (first, rest) ← one s fuel words
    match rest with
    | ['-', 'a'] :: rest =>
      let (second, rest) ← all s fuel rest
      return (first && second, rest)
    | rest => return (first, rest)

/-- One condition. -/
def one (s : Session) : Nat → List (List Char) → Condition
  | 0, words => .ok (false, words)
  | fuel + 1, words =>
    match words with
    | [] => .ok (false, [])
    | [word] => .ok (! word.isEmpty, [])
    | first :: second :: rest =>
      match rest with
      | third :: rest =>
        match between? second first third with
        | some value => do return (← value, rest)
        | none => prefixed s fuel first (second :: third :: rest)
      | [] => prefixed s fuel first [second]

/-- A condition that begins with a word that may be an operator. -/
def prefixed (s : Session) : Nat → List Char → List (List Char) → Condition
  | 0, _, words => .ok (false, words)
  | fuel + 1, first, words =>
    if first == ['!'] then do
      let (value, rest) ← one s fuel words
      return (!value, rest)
    else if first == ['('] then do
      let (value, rest) ← any s fuel words
      match rest with
      | [')'] :: rest => return (value, rest)
      | _ => throw .unclosed
    else
      match words with
      | word :: rest =>
        match before? s first word with
        | some value => .ok (value, rest)
        | none => .ok (! first.isEmpty, words)
      | [] => .ok (! first.isEmpty, words)

end

/-- Whether the words of a test hold. -/
def holds (s : Session) (words : List (List Char)) : Except ConditionFault Bool := do
  let (value, rest) ← any s (4 * words.length + 4) words
  match rest with
  | [] => return value
  | word :: _ => throw (.unexpected word)

end Condition

end ShaderChain.Shell
