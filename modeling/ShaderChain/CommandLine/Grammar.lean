import ShaderChain.Text.Split

/-!
# Grammars of command lines

A command has options, perhaps one positional argument, and perhaps commands
below it, one of which then has to follow. Options are written `--name` or with
one letter `-n`, several letters together; the value of an option is attached to
it, with or without `=`, or is the next word. After `--` no word is an option.

A value that stands as a word of its own is taken in only when the next option
or the end shows that it is complete, so a missing value is found there.
-/

set_option autoImplicit false

namespace ShaderChain.CommandLine

/-- What is wrong with a command line, or what it asks for instead of a command. -/
inductive UsageError where
  | displayHelp
  | displayVersion
  | helpOnMissingCommand
  | missingSubcommand
  | invalidSubcommand
  | missingRequiredArgument
  | unknownArgument
  | invalidValue
  | argumentConflict
  | tooManyValues
deriving DecidableEq, Repr

/-- A setting that takes a value: whether it may be given more than once, and whether its value is
a path, which may not be empty. -/
structure Setting where
  name : String
  repeatable : Bool
  isPath : Bool
deriving DecidableEq

/-- What an option does. -/
inductive OptionEffect where
  | flag (name : String)
  | setting (s : Setting)
  | help
  | version
deriving DecidableEq

/-- An option with its name and letter. -/
structure OptionRule where
  name : String
  letter : Option Char
  effect : OptionEffect

/-- A positional argument and whether it has to be given. -/
structure PositionalRule where
  setting : Setting
  required : Bool

/-- A command: its options, its positional argument, the pairs of settings that exclude each other,
and the commands below it. -/
inductive CommandRule where
  | mk (options : List OptionRule) (positional : Option PositionalRule)
      (exclusions : List (String × String)) (commands : List (String × CommandRule))

namespace CommandRule

/-- The options. -/
def options : CommandRule → List OptionRule
  | mk options _ _ _ => options

/-- The positional argument. -/
def positional : CommandRule → Option PositionalRule
  | mk _ positional _ _ => positional

/-- The pairs of settings that exclude each other. -/
def exclusions : CommandRule → List (String × String)
  | mk _ _ exclusions _ => exclusions

/-- The commands below. -/
def commands : CommandRule → List (String × CommandRule)
  | mk _ _ _ commands => commands

/-- The name of the command that asks for help on the commands beside it. -/
def help : String := "help"

/-- Whether a word names a command. -/
def names (rule : CommandRule) (word : String) : Bool :=
  !rule.commands.isEmpty && (word == help || (rule.commands.lookup word).isSome)

end CommandRule

/-- What was found of one command so far. The setting that was met last may wait for its value, or
for the proof that the value is complete. -/
structure Found where
  flags : List String
  values : List (String × String)
  pending : Option (Setting × Option String)
  onlyWords : Bool

namespace Found

/-- Nothing. -/
def nothing : Found := ⟨[], [], none, false⟩

/-- The last value of a setting. -/
def value? (f : Found) (name : String) : Option String :=
  (f.values.filter (·.1 == name)).getLast?.map Prod.snd

/-- All values of a setting. -/
def valuesOf (f : Found) (name : String) : List String :=
  (f.values.filter (·.1 == name)).map Prod.snd

/-- Whether a setting has a value. -/
def hasValue (f : Found) (name : String) : Bool := f.values.any (·.1 == name)

/-- Whether anything was given. -/
def isNothing (f : Found) : Bool := f.flags.isEmpty && f.values.isEmpty

/-- Whether a setting waits for its value. -/
def awaitsValue (f : Found) : Bool :=
  match f.pending with
  | some (_, none) => true
  | _ => false

/-- Gives a setting a value. -/
def assign (f : Found) (s : Setting) (value : String) : Except UsageError Found :=
  if f.hasValue s.name && !s.repeatable then .error .argumentConflict
  else if s.isPath && value.isEmpty then .error .invalidValue
  else .ok { f with values := f.values ++ [(s.name, value)] }

/-- Takes in the setting that was met last. -/
def settle (f : Found) : Except UsageError Found :=
  match f.pending with
  | none => .ok f
  | some (_, none) => .error .invalidValue
  | some (s, some value) => assign { f with pending := none } s value

/-- Sets a flag. -/
def raise (f : Found) (name : String) : Except UsageError Found :=
  f.settle.bind fun f =>
    if f.flags.contains name then .error .argumentConflict
    else .ok { f with flags := f.flags ++ [name] }

/-- Meets a setting, with its value if that is attached. -/
def meet (f : Found) (s : Setting) (attached : Option String) : Except UsageError Found :=
  f.settle.bind fun f =>
    match attached with
    | some value => f.assign s value
    | none => .ok { f with pending := some (s, none) }

/-- Does what an option without a value does. -/
def perform (f : Found) : OptionEffect → Except UsageError Found
  | .flag name => f.raise name
  | .setting s => f.meet s none
  | .help => f.settle.bind fun _ => .error .displayHelp
  | .version => f.settle.bind fun _ => .error .displayVersion

/-- Takes in an option written with its name, `body` being the word without the dashes. -/
def longOption (rule : CommandRule) (f : Found) (body : List Char) : Except UsageError Found :=
  let (name, attached) :=
    match Text.splitFirst? '=' body with
    | some (name, value) => (String.ofList name, some (String.ofList value))
    | none => (String.ofList body, none)
  match rule.options.find? (·.name == name) with
  | none => .error .unknownArgument
  | some option =>
    match option.effect, attached with
    | .setting s, attached => f.meet s attached
    | _, some _ => .error .tooManyValues
    | effect, none => f.perform effect

/-- The value attached to a letter, without the `=` in front. -/
def attachedValue : List Char → Option String
  | [] => none
  | '=' :: rest => some (String.ofList rest)
  | rest => some (String.ofList rest)

/-- Takes in options written with their letters. -/
def letterOptions (rule : CommandRule) (f : Found) : List Char → Except UsageError Found
  | [] => .ok f
  | c :: rest =>
    match rule.options.find? (·.letter == some c) with
    | none => .error .unknownArgument
    | some option =>
      match option.effect with
      | .setting s => f.meet s (attachedValue rest)
      | effect => (f.perform effect).bind fun f => f.letterOptions rule rest

/-- The error of a word that has no place: among commands it should have named one, unless it does
and stands behind `--`. -/
def misplaced (rule : CommandRule) (f : Found) (word : String) : UsageError :=
  if rule.commands.isEmpty || (f.onlyWords && rule.names word) then .unknownArgument
  else .invalidSubcommand

/-- Whether the positional argument has been met. -/
def hasPositional (f : Found) (s : Setting) : Bool :=
  f.hasValue s.name || f.pending.any (·.1 == s)

/-- Takes in a word that is no option and no command. -/
def positionalWord (rule : CommandRule) (f : Found) (word : String) : Except UsageError Found :=
  match rule.positional with
  | none => .error (f.misplaced rule word)
  | some p =>
    if f.hasPositional p.setting then .error (f.misplaced rule word)
    else f.settle.map fun f => { f with pending := some (p.setting, some word) }

/-- Takes in a word that names no command. -/
def word (rule : CommandRule) (f : Found) (word : String) : Except UsageError Found :=
  if f.onlyWords then f.positionalWord rule word
  else
    match word.toList with
    | ['-', '-'] => .ok { f with onlyWords := true }
    | '-' :: '-' :: body => f.longOption rule body
    | '-' :: c :: letters => f.letterOptions rule (c :: letters)
    | _ =>
      match f.pending with
      | some (s, none) => .ok { f with pending := some (s, some word) }
      | _ => f.positionalWord rule word

/-- What was found of a command after its last word, if nothing is missing and nothing excludes
anything else. -/
def complete (rule : CommandRule) (f : Found) : Except UsageError Found :=
  f.settle.bind fun f =>
    if !rule.commands.isEmpty then
      .error (if f.isNothing then .helpOnMissingCommand else .missingSubcommand)
    else if rule.exclusions.any fun pair => f.hasValue pair.1 && f.hasValue pair.2 then
      .error .argumentConflict
    else if rule.positional.any fun p => p.required && !f.hasValue p.setting.name then
      .error .missingRequiredArgument
    else .ok f

end Found

/-- What a request for help on a command, given by the names that lead to it, amounts to. -/
def helpOn (rule : CommandRule) : List String → UsageError
  | [] => .displayHelp
  | name :: rest =>
    match rule.commands.lookup name with
    | some below => helpOn below rest
    | none =>
      if rule.names name && rest.isEmpty then .displayHelp else .invalidSubcommand

/-- Reads the words of a command: the names of the commands that were met, and what was found of
each. -/
def parseFrom (rule : CommandRule) (f : Found) :
    List String → Except UsageError (List String × List Found)
  | [] => (f.complete rule).map fun f => ([], [f])
  | word :: rest =>
    if !f.onlyWords && !f.awaitsValue && rule.names word then
      match rule.commands.lookup word with
      | none => .error (helpOn rule rest)
      | some below =>
        (parseFrom below .nothing rest).map fun (names, found) => (word :: names, f :: found)
    else (f.word rule word).bind fun f => parseFrom rule f rest

/-- Reads the words of a command line. -/
def parse (rule : CommandRule) (words : List String) :
    Except UsageError (List String × List Found) :=
  parseFrom rule .nothing words

end ShaderChain.CommandLine
