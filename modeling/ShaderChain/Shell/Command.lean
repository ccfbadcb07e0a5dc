/-!
# Commands of the shell

Scripts as trees. A word is a list of pieces, some of which stand for what is
known only when the script runs: values of parameters, outputs of commands,
numbers.

Texts are lists of bytes, each one given as the character of its number.
-/

set_option autoImplicit false

namespace ShaderChain.Shell

/-- What is made of the value of a parameter: its length; another text if it is not set (or is
empty), perhaps as its new value, or if it is; an error if it is not set; the value without a part
in front or at the end that has a pattern, the shortest one or the longest. -/
inductive Change where
  | length
  | orElse (emptyToo : Bool)
  | assignElse (emptyToo : Bool)
  | instead (emptyToo : Bool)
  | demand (emptyToo : Bool)
  | dropFront (longest : Bool)
  | dropBack (longest : Bool)
deriving DecidableEq

/-- What a redirection does with a descriptor: it opens a file for reading, for writing, or for
writing at the end; makes the descriptor the same as another; or lets a text be read. -/
inductive RedirectionKind where
  | input
  | output
  | append
  | duplicate
  | hereText
deriving DecidableEq

mutual

/-- A piece of a word. -/
inductive Piece where
  | plain (text : List Char)
  | quoted (text : List Char)
  | parameter (name : String) (change : Option Change) (word : List Piece) (isQuoted : Bool)
  | output (body : Command) (isQuoted : Bool)
  | number (expression : List Piece)

/-- A redirection of a descriptor. -/
inductive Redirection where
  | mk (descriptor : Nat) (kind : RedirectionKind) (target : List Piece)

/-- A command. A simple command knows how many ends of lines follow it in its script. -/
inductive Command where
  | nothing
  | simple (linesAfter : Nat) (assignments : List (String × List Piece))
      (words : List (List Piece)) (redirections : List Redirection)
  | sequence (first second : Command)
  | both (first second : Command)
  | either (first second : Command)
  | negation (body : Command)
  | pipe (first second : Command)
  | conditional (test body otherwise : Command)
  | loop (isUntil : Bool) (test body : Command)
  | forEach (name : String) (words : Option (List (List Piece))) (body : Command)
  | choose (subject : List Piece) (branches : List (List (List Piece) × Command))
  | group (body : Command) (redirections : List Redirection)
  | subshell (body : Command) (redirections : List Redirection)
  | define (name : String) (body : Command)

end

/-- A word. -/
abbrev Word := List Piece

instance : Inhabited Piece := ⟨.plain []⟩

instance : Inhabited Command := ⟨.nothing⟩

end ShaderChain.Shell
