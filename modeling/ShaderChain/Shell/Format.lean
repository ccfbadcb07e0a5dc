import ShaderChain.Shell.Session

/-!
# Formats

How a format is filled with arguments, and what the escapes in a text stand
for. A format is used again as long as arguments are left.
-/

set_option autoImplicit false

namespace ShaderChain.Shell

/-- Whether a character is an octal digit. -/
def isOctal (c : Char) : Bool := '0' ≤ c && c ≤ '7'

/-- The byte that up to some octal digits write, and what follows them. -/
def octal (most : Nat) (cs : List Char) : Char × List Char :=
  let digits := (cs.take most).takeWhile isOctal
  (Char.ofNat (digits.foldl (fun n c => n * 8 + (c.toNat - 48)) 0 % 256), cs.drop digits.length)

/-- The escapes of one letter. -/
def letterEscapes : List (Char × Char) :=
  [('a', '\x07'), ('b', '\x08'), ('f', '\x0c'), ('n', '\n'), ('r', '\r'), ('t', '\t'),
   ('v', '\x0b'), ('\\', '\\')]

/-- A text with its escapes replaced, and whether an escape asks to print nothing more. A number
is written with a zero before its octal digits. -/
def escaped : Nat → List Char → List Char × Bool
  | 0, cs => (cs, false)
  | _ + 1, [] => ([], false)
  | fuel + 1, '\\' :: c :: rest =>
    let after (first : List Char) (rest : List Char) : List Char × Bool :=
      let (text, isLast) := escaped fuel rest
      (first ++ text, isLast)
    if c == 'c' then ([], true)
    else if c == '0' then
      let (byte, rest) := octal 3 rest
      after [byte] rest
    else
      match letterEscapes.lookup c with
      | some byte => after [byte] rest
      | none => after ['\\', c] rest
  | fuel + 1, c :: rest =>
    let (text, isLast) := escaped fuel rest
    (c :: text, isLast)

/-- A text with its escapes replaced, and whether nothing more is to be printed. -/
def unescape (cs : List Char) : List Char × Bool := escaped cs.length cs

/-- How a value is laid out: at the left, with a sign, in at least so many characters, and with a
precision. -/
structure Layout where
  flags : List Char
  width : Nat
  precision : Option Nat

/-- A text filled up with blanks, or with zeros behind a sign. -/
def Layout.fill (l : Layout) (isNumber : Bool) (text : List Char) : List Char :=
  let missing := l.width - text.length
  if l.flags.contains '-' then text ++ List.replicate missing ' '
  else if isNumber && l.flags.contains '0' && l.precision.isNone then
    match text with
    | '-' :: digits => '-' :: List.replicate missing '0' ++ digits
    | digits => List.replicate missing '0' ++ digits
  else List.replicate missing ' ' ++ text

/-- The digits of a number, as many as the precision asks for. -/
def Layout.digits (l : Layout) (base n : Nat) : List Char :=
  let digits := Nat.toDigits base n
  List.replicate (l.precision.getD 1 - digits.length) '0' ++ digits

/-- The number that an argument writes, decimal, octal or hexadecimal, or the code of the character
after a quote. -/
def numberOf (cs : List Char) : Option Int :=
  match cs with
  | [] => some 0
  | '\'' :: c :: _ => some c.toNat
  | '"' :: c :: _ => some c.toNat
  | cs =>
    let (sign, cs) : Int × List Char :=
      match cs with
      | '-' :: rest => (-1, rest)
      | '+' :: rest => (1, rest)
      | cs => (1, cs)
    let (base, digits) : Nat × List Char :=
      match cs with
      | '0' :: 'x' :: rest => (16, rest)
      | '0' :: 'X' :: rest => (16, rest)
      | '0' :: rest => (8, '0' :: rest)
      | cs => (10, cs)
    let value (c : Char) : Nat :=
      if c.isDigit then c.toNat - 48 else if c.isAlpha then c.toLower.toNat - 87 else 99
    if digits.isEmpty || digits.any (fun c => base ≤ value c) then none
    else some (sign * (digits.foldl (fun n c => n * base + value c) 0 : Nat))

/-- What filling a format gives: the text, the arguments that are left, those that are no number,
and whether an escape asks to print nothing more. -/
structure Filled where
  text : List Char
  arguments : List (List Char)
  faults : List (List Char)
  isLast : Bool

/-- The text of an argument after the layout that a letter asks for. -/
def convert (letter : Char) (l : Layout) (argument : List Char) : List Char × Bool × Bool :=
  let number : Int := (numberOf argument).getD 0
  let isFault := "diouxX".toList.contains letter && (numberOf argument).isNone
  let natural (base : Nat) : List Char :=
    l.digits base (if number < 0 then (number + 18446744073709551616).toNat else number.toNat)
  if letter == 'd' || letter == 'i' then
    let sign : List Char :=
      if number < 0 then ['-']
      else if l.flags.contains '+' then ['+']
      else if l.flags.contains ' ' then [' ']
      else []
    (l.fill true (sign ++ l.digits 10 number.natAbs), isFault, false)
  else if letter == 'u' then (l.fill true (natural 10), isFault, false)
  else if letter == 'o' then (l.fill true (natural 8), isFault, false)
  else if letter == 'x' then (l.fill true (natural 16), isFault, false)
  else if letter == 'X' then (l.fill true ((natural 16).map Char.toUpper), isFault, false)
  else if letter == 'c' then (l.fill false (argument.take 1), false, false)
  else if letter == 'b' then
    let (text, isLast) := unescape argument
    (l.fill false (text.take (l.precision.getD text.length)), false, isLast)
  else (l.fill false (argument.take (l.precision.getD argument.length)), false, false)

/-- A number in a layout, which may be a star that stands for the next argument. -/
def layoutNumber (cs : List Char) (arguments : List (List Char)) :
    Option Nat × List Char × List (List Char) :=
  match cs with
  | '*' :: rest => (some ((numberOf (arguments.headD [])).getD 0).toNat, rest, arguments.drop 1)
  | cs =>
    let digits := cs.takeWhile Char.isDigit
    (if digits.isEmpty then none
      else some (digits.foldl (fun n c => n * 10 + (c.toNat - 48)) 0),
      cs.drop digits.length, arguments)

/-- A format filled once. -/
def fillOnce : Nat → List Char → List (List Char) → Filled
  | 0, cs, arguments => ⟨cs, arguments, [], false⟩
  | _ + 1, [], arguments => ⟨[], arguments, [], false⟩
  | fuel + 1, '%' :: '%' :: rest, arguments =>
    let more := fillOnce fuel rest arguments
    { more with text := '%' :: more.text }
  | fuel + 1, '%' :: cs, arguments =>
    let flags := cs.takeWhile fun c => "-+ #0".toList.contains c
    let (width, cs, arguments) := layoutNumber (cs.drop flags.length) arguments
    let (precision, cs, arguments) :=
      match cs with
      | '.' :: rest =>
        let (precision, rest, arguments) := layoutNumber rest arguments
        (some (precision.getD 0), rest, arguments)
      | cs => (none, cs, arguments)
    match cs with
    | [] => ⟨['%'], arguments, [], true⟩
    | letter :: rest =>
      let argument := arguments.headD []
      let (text, isFault, isLast) := convert letter ⟨flags, width.getD 0, precision⟩ argument
      let more := fillOnce fuel rest (arguments.drop 1)
      if isLast then ⟨text, [], [], true⟩
      else
        { more with
          text := text ++ more.text
          faults := if isFault then argument :: more.faults else more.faults }
  | fuel + 1, '\\' :: c :: rest, arguments =>
    if c == 'c' then ⟨[], [], [], true⟩
    else
      let (front, rest) : List Char × List Char :=
        if isOctal c then
          let (byte, rest) := octal 3 (c :: rest)
          ([byte], rest)
        else
          match letterEscapes.lookup c with
          | some byte => ([byte], rest)
          | none => (['\\', c], rest)
      let more := fillOnce fuel rest arguments
      { more with text := front ++ more.text }
  | fuel + 1, c :: rest, arguments =>
    let more := fillOnce fuel rest arguments
    { more with text := c :: more.text }

/-- A format filled as often as it takes to use up the arguments. -/
def fillAll (format : List Char) : Nat → List (List Char) → Filled
  | 0, arguments => ⟨[], arguments, [], true⟩
  | fuel + 1, arguments =>
    let first := fillOnce (format.length + 1) format arguments
    let isDone := first.arguments.isEmpty || first.arguments.length = arguments.length
    if first.isLast || isDone then first
    else
      let more := fillAll format fuel first.arguments
      { more with text := first.text ++ more.text, faults := first.faults ++ more.faults }

/-- What a format prints for arguments. -/
def fill (format : List Char) (arguments : List (List Char)) : Filled :=
  fillAll format (arguments.length + 1) arguments

end ShaderChain.Shell
