import ShaderChain.Number.Integer

/-!
# Arithmetic

The value of an expression over integers: operators by their rank, parentheses
and names, which stand for the numbers that variables hold. An expression that
is not well formed has no value.
-/

set_option autoImplicit false

namespace ShaderChain.Shell.Arithmetic

/-- The operators between two operands, those that bind least first. The first that a text begins
with is the one that stands there. -/
def ranks : List (List (String × (Int → Int → Option Int))) :=
  let truth (b : Bool) : Option Int := some (if b then 1 else 0)
  [[("||", fun a b => truth (a != 0 || b != 0))],
   [("&&", fun a b => truth (a != 0 && b != 0))],
   [("==", fun a b => truth (a == b)), ("!=", fun a b => truth (a != b))],
   [("<=", fun a b => truth (a ≤ b)), (">=", fun a b => truth (a ≥ b)),
    ("<", fun a b => truth (a < b)), (">", fun a b => truth (a > b))],
   [("+", fun a b => some (a + b)), ("-", fun a b => some (a - b))],
   [("*", fun a b => some (a * b)),
    ("/", fun a b => if b = 0 then none else some (a.tdiv b)),
    ("%", fun a b => if b = 0 then none else some (a.tmod b))]]

/-- The characters after blanks. -/
def skip (cs : List Char) : List Char := cs.dropWhile fun c => c == ' ' || c == '\t' || c == '\n'

/-- The operator of a rank in front, with the characters after it. -/
def operator? (rank : List (String × (Int → Int → Option Int))) (cs : List Char) :
    Option ((Int → Int → Option Int) × List Char) :=
  rank.findSome? fun (text, operation) =>
    if text.toList.isPrefixOf cs then some (operation, cs.drop text.length) else none

mutual

/-- Operands joined by operators of the first of some ranks, or of later ones. -/
def joined (value : String → Int) : Nat → List (List (String × (Int → Int → Option Int))) →
    List Char → Option (Int × List Char)
  | 0, _, _ => none
  | fuel + 1, [], cs => operand value fuel (skip cs)
  | fuel + 1, rank :: ranks, cs => do
    let (first, rest) ← joined value fuel ranks cs
    joinedAfter value fuel rank ranks first rest

/-- What is joined to an operand by operators of a rank. -/
def joinedAfter (value : String → Int) : Nat → List (String × (Int → Int → Option Int)) →
    List (List (String × (Int → Int → Option Int))) → Int → List Char → Option (Int × List Char)
  | 0, _, _, _, _ => none
  | fuel + 1, rank, ranks, first, cs =>
    match operator? rank (skip cs) with
    | none => some (first, skip cs)
    | some (operation, rest) => do
      let (second, rest) ← joined value fuel ranks rest
      joinedAfter value fuel rank ranks (← operation first second) rest

/-- A number, a name, an expression in parentheses, or an operand with a sign. -/
def operand (value : String → Int) : Nat → List Char → Option (Int × List Char)
  | 0, _ => none
  | _ + 1, [] => none
  | fuel + 1, '(' :: rest => do
    match ← joined value fuel ranks rest with
    | (n, ')' :: rest) => some (n, rest)
    | _ => none
  | fuel + 1, '-' :: rest => do
    let (n, rest) ← operand value fuel (skip rest)
    return (-n, rest)
  | fuel + 1, '+' :: rest => operand value fuel (skip rest)
  | fuel + 1, '!' :: rest => do
    let (n, rest) ← operand value fuel (skip rest)
    return (if n = 0 then 1 else 0, rest)
  | _ + 1, c :: rest =>
    if c.isDigit then
      let digits := (c :: rest).takeWhile Char.isDigit
      some (digits.foldl (fun n c => n * 10 + (c.toNat - 48)) 0, (c :: rest).drop digits.length)
    else if c.isAlpha || c == '_' then
      let name := (c :: rest).takeWhile fun c => c.isAlphanum || c == '_'
      some (value (String.ofList name), (c :: rest).drop name.length)
    else none

end

/-- The value of an expression. -/
def eval? (value : String → Int) (cs : List Char) : Option Int :=
  match joined value (16 * cs.length + 32) ranks cs with
  | some (n, []) => some n
  | _ => none

end ShaderChain.Shell.Arithmetic
