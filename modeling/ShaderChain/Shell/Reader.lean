import ShaderChain.Shell.Command
import ShaderChain.Text.Split

/-!
# Reading scripts

A script is read character by character. Each reader gives what it read and the
characters after it, or nothing if the script is not well formed. The readers
call each other; their first argument bounds how deep, and the length of the
script is enough.
-/

set_option autoImplicit false

namespace ShaderChain.Shell

/-- A reader of a value from the front of some characters. -/
abbrev Reader (α : Type) := List Char → Option (α × List Char)

/-- Whether a character may be the first of a name. -/
def startsName (c : Char) : Bool := c.isAlpha || c == '_'

/-- Whether a character may stand in a name. -/
def isNameChar (c : Char) : Bool := c.isAlphanum || c == '_'

/-- Whether an unquoted character ends a word. -/
def endsWord (c : Char) : Bool := " \t\n;&|<>()".toList.contains c

/-- The parameters that are named by one special character. -/
def isSpecialName (c : Char) : Bool := "@*#?-$!".toList.contains c || c.isDigit

/-- The characters after blanks and joined lines. -/
def skipBlanks : List Char → List Char
  | ' ' :: rest => skipBlanks rest
  | '\t' :: rest => skipBlanks rest
  | '\\' :: '\n' :: rest => skipBlanks rest
  | cs => cs

/-- The characters after blanks and a comment, if there is one. -/
def skipComment (cs : List Char) : List Char :=
  match skipBlanks cs with
  | '#' :: rest => rest.dropWhile (· != '\n')
  | cs => cs

/-- The characters after blanks, comments and ends of lines. -/
def skipLines : Nat → List Char → List Char
  | 0, cs => cs
  | fuel + 1, cs =>
    match skipComment cs with
    | '\n' :: rest => skipLines fuel rest
    | cs => cs

/-- The words that have a meaning of their own where a command begins. -/
def reservedWords : List String :=
  ["if", "then", "else", "elif", "fi", "while", "until", "do", "done", "for", "in", "case", "esac",
   "\x7b", "\x7d", "!"]

/-- The reserved word in front, with the characters after it. -/
def reserved? (cs : List Char) : Option (String × List Char) :=
  let (front, rest) := cs.span fun c => !endsWord c
  if reservedWords.contains (String.ofList front) then some (String.ofList front, rest) else none

/-- The characters after a certain reserved word, which may stand after blanks and lines. -/
def expect? (word : String) (cs : List Char) : Option (List Char) :=
  match reserved? (skipLines cs.length cs) with
  | some (found, rest) => if found = word then some rest else none
  | none => none

/-- The operator of a redirection, with the descriptor it is for if none is written. -/
def operator? : List Char → Option (RedirectionKind × Nat × List Char)
  | '>' :: '>' :: rest => some (.append, 1, rest)
  | '>' :: '&' :: rest => some (.duplicate, 1, rest)
  | '>' :: '|' :: rest => some (.output, 1, rest)
  | '>' :: rest => some (.output, 1, rest)
  | '<' :: '&' :: rest => some (.duplicate, 0, rest)
  | '<' :: '<' :: rest => some (.hereText, 0, rest)
  | '<' :: rest => some (.input, 0, rest)
  | _ => none

/-- The operator of a redirection with the descriptor written before it. -/
def redirection? (cs : List Char) : Option (RedirectionKind × Nat × List Char) :=
  let (digits, rest) := cs.span Char.isDigit
  (operator? rest).map fun (kind, usual, rest) =>
    (kind, if digits.isEmpty then usual else digits.foldl (fun n c => n * 10 + (c.toNat - 48)) 0,
      rest)

/-- The characters up to a mark that is not escaped, escapes of the mark, the backslash and the
dollar sign removed. -/
def untilMark (mark : Char) : List Char → Option (List Char × List Char)
  | [] => none
  | '\\' :: c :: rest =>
    (untilMark mark rest).map fun (front, rest) =>
      (if c == mark || c == '\\' || c == '$' then c :: front else '\\' :: c :: front, rest)
  | c :: rest =>
    if c == mark then some ([], rest)
    else (untilMark mark rest).map fun (front, rest) => (c :: front, rest)

/-- The characters up to two closing parentheses, at a depth of other parentheses. -/
def untilClosed (depth : Nat) : List Char → Option (List Char × List Char)
  | [] => none
  | ')' :: ')' :: rest =>
    if depth = 0 then some ([], rest)
    else (untilClosed (depth - 1) (')' :: rest)).map fun (front, rest) => (')' :: front, rest)
  | c :: rest =>
    let depth := if c == '(' then depth + 1 else if c == ')' then depth - 1 else depth
    (untilClosed depth rest).map fun (front, rest) => (c :: front, rest)

/-- What is made of a parameter, from the characters after its name in braces. -/
def change? : List Char → Option (Option Change × List Char)
  | ':' :: '-' :: rest => some (some (.orElse true), rest)
  | ':' :: '=' :: rest => some (some (.assignElse true), rest)
  | ':' :: '+' :: rest => some (some (.instead true), rest)
  | ':' :: '?' :: rest => some (some (.demand true), rest)
  | '-' :: rest => some (some (.orElse false), rest)
  | '=' :: rest => some (some (.assignElse false), rest)
  | '+' :: rest => some (some (.instead false), rest)
  | '?' :: rest => some (some (.demand false), rest)
  | '#' :: '#' :: rest => some (some (.dropFront true), rest)
  | '#' :: rest => some (some (.dropFront false), rest)
  | '%' :: '%' :: rest => some (some (.dropBack true), rest)
  | '%' :: rest => some (some (.dropBack false), rest)
  | '\x7d' :: rest => some (none, '\x7d' :: rest)
  | _ => none

/-- The name of a parameter in front. -/
def parameterName? : List Char → Option (String × List Char)
  | [] => none
  | c :: rest =>
    if startsName c then
      let (front, rest) := (c :: rest).span isNameChar
      some (String.ofList front, rest)
    else if isSpecialName c then some (c.toString, rest)
    else none

/-- The name of a function whose definition begins, with the characters of its body. -/
def definition? (cs : List Char) : Option (String × List Char) :=
  let (name, rest) := cs.span isNameChar
  match skipBlanks rest with
  | '(' :: rest =>
    match skipBlanks rest with
    | ')' :: rest => some (String.ofList name, skipLines rest.length rest)
    | _ => none
  | _ => none

/-- The lines of a text up to one that is a delimiter, without tabs in front if `isIndented`, and
the text after that. -/
def hereLines (delimiter : List Char) (isIndented : Bool) :
    Nat → List Char → List Char × List Char
  | 0, cs => (cs, [])
  | fuel + 1, cs =>
    let (line, rest) := cs.span (· != '\n')
    let line := if isIndented then line.dropWhile (· == '\t') else line
    if line == delimiter || cs.isEmpty then ([], rest)
    else
      let (front, after) := hereLines delimiter isIndented fuel (rest.drop 1)
      (line ++ '\n' :: front, after)

/-- The text that a word writes if nothing in it is to be replaced, and whether part of it is
quoted. -/
def literalText (w : Word) : List Char × Bool :=
  (w.flatMap fun
    | .plain text => text
    | .quoted text => text
    | _ => [],
    w.any fun
    | .quoted _ => true
    | _ => false)

mutual

/-- Pieces up to an unquoted character that `stop` holds of. -/
def pieces? (stop : Char → Bool) : Nat → Reader Word
  | 0, _ => none
  | _ + 1, [] => some ([], [])
  | fuel + 1, c :: rest =>
    let go (first : Word) (rest : List Char) : Option (Word × List Char) :=
      (pieces? stop fuel rest).map fun (pieces, rest) => (first ++ pieces, rest)
    if stop c then some ([], c :: rest)
    else if c == '\'' then
      let (text, after) := rest.span (· != '\'')
      if after.isEmpty then none else go [.quoted text] (after.drop 1)
    else if c == '"' then
      match doublyQuoted? (some '"') fuel rest with
      | some (pieces, rest) => go (.quoted [] :: pieces) rest
      | none => none
    else if c == '\\' then
      match rest with
      | '\n' :: rest => go [] rest
      | e :: rest => go [.quoted [e]] rest
      | [] => some ([.quoted ['\\']], [])
    else if c == '$' || c == '\x60' then
      match expansion? false fuel (c :: rest) with
      | some (piece, rest) => go [piece] rest
      | none => none
    else go [.plain [c]] rest

/-- Pieces in which only what a dollar sign or a backquote begins is not a plain text, up to the
mark that closes them, or up to the end if there is none. -/
def doublyQuoted? (mark : Option Char) : Nat → Reader Word
  | 0, _ => none
  | _ + 1, [] => if mark.isNone then some ([], []) else none
  | fuel + 1, c :: rest =>
    let go (first : Word) (rest : List Char) : Option (Word × List Char) :=
      (doublyQuoted? mark fuel rest).map fun (pieces, rest) => (first ++ pieces, rest)
    if mark == some c then some ([], rest)
    else if c == '\\' then
      match rest with
      | '\n' :: rest => go [] rest
      | e :: rest =>
        if "$\x60\\".toList.contains e || mark == some e then go [.quoted [e]] rest
        else go [.quoted ['\\', e]] rest
      | [] => none
    else if c == '$' || c == '\x60' then
      match expansion? true fuel (c :: rest) with
      | some (piece, rest) => go [piece] rest
      | none => none
    else go [.quoted [c]] rest

/-- A piece that stands for what is known later, from its first character on. -/
def expansion? (isQuoted : Bool) : Nat → Reader Piece
  | 0, _ => none
  | fuel + 1, '\x60' :: rest =>
    match untilMark '\x60' rest with
    | some (text, rest) => (script? fuel text).map fun body => (.output body isQuoted, rest)
    | none => none
  | fuel + 1, '$' :: '(' :: '(' :: rest =>
    match untilClosed 0 rest with
    | some (text, rest) =>
      (pieces? (fun _ => false) fuel text).map fun (expression, _) => (.number expression, rest)
    | none => none
  | fuel + 1, '$' :: '(' :: rest =>
    match list? fuel rest with
    | some (body, rest) =>
      match skipLines rest.length rest with
      | ')' :: rest => some (.output body isQuoted, rest)
      | _ => none
    | none => none
  | fuel + 1, '$' :: '\x7b' :: rest => braced? isQuoted fuel rest
  | _ + 1, '$' :: rest =>
    match parameterName? rest with
    | some (name, rest) => some (.parameter name none [] isQuoted, rest)
    | none => some (.quoted ['$'], rest)
  | _ + 1, _ => none

/-- A parameter in braces, the first of which was read. -/
def braced? (isQuoted : Bool) : Nat → Reader Piece
  | 0, _ => none
  | fuel + 1, cs =>
    let ofLength :=
      match cs with
      | '#' :: rest =>
        match parameterName? rest with
        | some (name, '\x7d' :: rest) => some (name, rest)
        | _ => none
      | _ => none
    match ofLength with
    | some (name, rest) => some (.parameter name (some .length) [] isQuoted, rest)
    | none =>
      match parameterName? cs with
      | none => none
      | some (name, rest) =>
        match change? rest with
        | none => none
        | some (change, rest) =>
          match pieces? (· == '\x7d') fuel rest with
          | some (word, '\x7d' :: rest) => some (.parameter name change word isQuoted, rest)
          | _ => none

/-- Commands up to where no command begins. -/
def list? : Nat → Reader Command
  | 0, _ => none
  | fuel + 1, cs =>
    let cs := skipLines cs.length cs
    match junction? fuel cs with
    | none => some (.nothing, cs)
    | some (first, rest) =>
      let more (rest : List Char) : Option (Command × List Char) :=
        (list? fuel rest).map fun (second, rest) => (.sequence first second, rest)
      match skipComment rest with
      | ';' :: ';' :: rest => some (first, ';' :: ';' :: rest)
      | ';' :: rest => more rest
      | '&' :: rest => more rest
      | '\n' :: rest => more rest
      | rest => some (first, rest)

/-- Commands joined by their success or failure. -/
def junction? : Nat → Reader Command
  | 0, _ => none
  | fuel + 1, cs =>
    match pipeline? fuel cs with
    | none => none
    | some (first, rest) => junctionAfter? first fuel rest

/-- What is joined to a command. -/
def junctionAfter? (first : Command) : Nat → Reader Command
  | 0, _ => none
  | fuel + 1, cs =>
    match skipBlanks cs with
    | '&' :: '&' :: rest =>
      match pipeline? fuel (skipLines rest.length rest) with
      | some (second, rest) => junctionAfter? (.both first second) fuel rest
      | none => none
    | '|' :: '|' :: rest =>
      match pipeline? fuel (skipLines rest.length rest) with
      | some (second, rest) => junctionAfter? (.either first second) fuel rest
      | none => none
    | cs => some (first, cs)

/-- Commands each of which reads what the one before it writes. -/
def pipeline? : Nat → Reader Command
  | 0, _ => none
  | fuel + 1, cs =>
    match reserved? (skipBlanks cs) with
    | some ("!", rest) => (pipeline? fuel rest).map fun (body, rest) => (.negation body, rest)
    | _ =>
      match command? fuel (skipBlanks cs) with
      | none => none
      | some (first, rest) =>
        match skipBlanks rest with
        | '|' :: '|' :: rest => some (first, '|' :: '|' :: rest)
        | '|' :: rest =>
          (pipeline? fuel (skipLines rest.length rest)).map fun (second, rest) =>
            (.pipe first second, rest)
        | rest => some (first, rest)

/-- One command. -/
def command? : Nat → Reader Command
  | 0, _ => none
  | _ + 1, [] => none
  | fuel + 1, '(' :: rest =>
    match list? fuel rest with
    | some (body, rest) =>
      match skipLines rest.length rest with
      | ')' :: rest => redirected? (.subshell body) fuel rest
      | _ => none
    | none => none
  | fuel + 1, cs =>
    match reserved? cs with
    | some (word, rest) => compound? word fuel rest
    | none =>
      match definition? cs with
      | some (name, rest) => (command? fuel rest).map fun (body, rest) => (.define name body, rest)
      | none => simple? cs.length [] [] [] fuel cs

/-- A command with the redirections after it. -/
def redirected? (make : List Redirection → Command) : Nat → Reader Command
  | 0, _ => none
  | fuel + 1, cs =>
    match redirection? (skipBlanks cs) with
    | none => some (make [], cs)
    | some (kind, descriptor, rest) =>
      match target? kind fuel rest with
      | none => none
      | some (target, rest) =>
        redirected? (fun more => make (.mk descriptor kind target :: more)) fuel rest

/-- The target of a redirection. -/
def target? (kind : RedirectionKind) : Nat → Reader Word
  | 0, _ => none
  | fuel + 1, cs =>
    match pieces? endsWord fuel (skipBlanks cs) with
    | none => none
    | some ([], _) => none
    | some (word, rest) =>
      if kind = .hereText then
        let (delimiter, isQuoted) := literalText word
        let (line, after) := rest.span (· != '\n')
        let isIndented := delimiter.head? == some '-'
        let delimiter := if isIndented then delimiter.drop 1 else delimiter
        let (text, after) := hereLines delimiter isIndented (after.length + 1) (after.drop 1)
        if isQuoted then some ([.quoted text], line ++ '\n' :: after.drop 1)
        else
          (doublyQuoted? none fuel text).map fun (word, _) =>
            (.quoted [] :: word, line ++ '\n' :: after.drop 1)
      else some (word, rest)

/-- A command that begins with a reserved word. -/
def compound? (word : String) : Nat → Reader Command
  | 0, _ => none
  | fuel + 1, cs =>
    if word = "if" then
      match conditional? fuel cs with
      | some (c, rest) => redirected? (.group c) fuel rest
      | none => none
    else if word = "while" || word = "until" then
      match list? fuel cs with
      | none => none
      | some (test, rest) =>
        match body? fuel rest with
        | some (body, rest) => redirected? (.group (.loop (word = "until") test body)) fuel rest
        | none => none
    else if word = "for" then forEach? fuel cs
    else if word = "case" then
      match pieces? endsWord fuel (skipBlanks cs) with
      | none => none
      | some (subject, rest) =>
        match expect? "in" rest with
        | none => none
        | some rest =>
          match branches? fuel rest with
          | some (branches, rest) => redirected? (.group (.choose subject branches)) fuel rest
          | none => none
    else if word = "\x7b" then
      match list? fuel cs with
      | none => none
      | some (body, rest) =>
        match expect? "\x7d" rest with
        | some rest => redirected? (.group body) fuel rest
        | none => none
    else none

/-- The rest of a conditional. -/
def conditional? : Nat → Reader Command
  | 0, _ => none
  | fuel + 1, cs =>
    match list? fuel cs with
    | none => none
    | some (test, rest) =>
      match expect? "then" rest with
      | none => none
      | some rest =>
        match list? fuel rest with
        | none => none
        | some (body, rest) =>
          match reserved? (skipLines rest.length rest) with
          | some ("fi", rest) => some (.conditional test body .nothing, rest)
          | some ("elif", rest) =>
            (conditional? fuel rest).map fun (otherwise, rest) =>
              (.conditional test body otherwise, rest)
          | some ("else", rest) =>
            match list? fuel rest with
            | none => none
            | some (otherwise, rest) =>
              (expect? "fi" rest).map fun rest => (.conditional test body otherwise, rest)
          | _ => none

/-- The body of a loop. -/
def body? : Nat → Reader Command
  | 0, _ => none
  | fuel + 1, cs =>
    match expect? "do" cs with
    | none => none
    | some rest =>
      match list? fuel rest with
      | none => none
      | some (body, rest) => (expect? "done" rest).map fun rest => (body, rest)

/-- The rest of a loop over words. -/
def forEach? : Nat → Reader Command
  | 0, _ => none
  | fuel + 1, cs =>
    match parameterName? (skipBlanks cs) with
    | none => none
    | some (name, rest) =>
      let loop (words : Option (List Word)) (rest : List Char) : Option (Command × List Char) :=
        match body? fuel rest with
        | some (body, rest) => redirected? (.group (.forEach name words body)) fuel rest
        | none => none
      match expect? "in" rest with
      | none =>
        match skipBlanks rest with
        | ';' :: rest => loop none rest
        | rest => loop none rest
      | some rest =>
        match words? fuel rest with
        | none => none
        | some (words, rest) =>
          match skipBlanks rest with
          | ';' :: rest => loop (some words) rest
          | rest => loop (some words) rest

/-- Words up to the end of a line or command. -/
def words? : Nat → Reader (List Word)
  | 0, _ => none
  | fuel + 1, cs =>
    match pieces? endsWord fuel (skipBlanks cs) with
    | none => none
    | some ([], rest) => some ([], rest)
    | some (word, rest) => (words? fuel rest).map fun (words, rest) => (word :: words, rest)

/-- The branches of a choice. -/
def branches? : Nat → Reader (List (List Word × Command))
  | 0, _ => none
  | fuel + 1, cs =>
    match skipLines cs.length cs with
    | [] => none
    | c :: rest =>
      match reserved? (c :: rest) with
      | some ("esac", rest) => some ([], rest)
      | _ =>
        match patterns? fuel (if c == '(' then rest else c :: rest) with
        | none => none
        | some (patterns, rest) =>
          match list? fuel rest with
          | none => none
          | some (body, rest) =>
            let rest :=
              match skipLines rest.length rest with
              | ';' :: ';' :: rest => rest
              | rest => rest
            (branches? fuel rest).map fun (branches, rest) => ((patterns, body) :: branches, rest)

/-- The patterns of a branch. -/
def patterns? : Nat → Reader (List Word)
  | 0, _ => none
  | fuel + 1, cs =>
    match pieces? endsWord fuel (skipBlanks cs) with
    | none => none
    | some (pattern, rest) =>
      match skipBlanks rest with
      | ')' :: rest => some ([pattern], rest)
      | '|' :: rest => (patterns? fuel rest).map fun (patterns, rest) => (pattern :: patterns, rest)
      | _ => none

/-- The rest of a simple command. -/
def simple? (size : Nat) (assignments : List (String × Word)) (words : List Word)
    (redirections : List Redirection) : Nat → Reader Command
  | 0, _ => none
  | fuel + 1, cs =>
    let cs := skipBlanks cs
    match redirection? cs with
    | some (kind, descriptor, rest) =>
      match target? kind fuel rest with
      | none => none
      | some (target, rest) =>
        simple? size assignments words (redirections ++ [.mk descriptor kind target]) fuel rest
    | none =>
      let (name, after) := cs.span isNameChar
      match words, name, after with
      | [], c :: _, '=' :: after =>
        if startsName c then
          match pieces? endsWord fuel after with
          | none => none
          | some (value, rest) =>
            simple? size (assignments ++ [(String.ofList name, value)]) [] redirections fuel rest
        else wordOf? size assignments words redirections fuel cs
      | _, _, _ => wordOf? size assignments words redirections fuel cs

/-- One more word of a simple command, or its end. -/
def wordOf? (size : Nat) (assignments : List (String × Word)) (words : List Word)
    (redirections : List Redirection) : Nat → Reader Command
  | 0, _ => none
  | fuel + 1, cs =>
    match if cs.head? == some '#' then some ([], cs) else pieces? endsWord fuel cs with
    | none => none
    | some ([], rest) =>
      if assignments.isEmpty && words.isEmpty && redirections.isEmpty then none
      else some (.simple (rest.count '\n') assignments words redirections, rest)
    | some (word, rest) => simple? size assignments (words ++ [word]) redirections fuel rest

/-- A whole script. -/
def script? : Nat → List Char → Option Command
  | 0, _ => none
  | fuel + 1, cs =>
    match list? fuel cs with
    | some (c, []) => some c
    | _ => none

end

/-- The command that a script writes. -/
def read? (cs : List Char) : Option Command := script? (4 * cs.length + 16) cs

end ShaderChain.Shell
