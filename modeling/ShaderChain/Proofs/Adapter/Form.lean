import ShaderChain.Proofs.Adapter.Complete
import ShaderChain.Proofs.Parameter.Exactness

/-!
# Forms of command lines

Two arguments of the built-in tools are free texts: the entry point, and the
further options of `dxc`. A caller may write anything into them, and the paths on
a command line may be any. What they do to a command line is told by its form
(`Place`): a list of places, some with a text of their own, and others for the
entry point, the further options and the paths. The line is the form filled in.

In a form every place for a caller's text stands once, behind its flag where it has
one, or not at all (`Mention.Of`). So a free text never becomes more than one
argument, nor part of another, and another entry point changes its own place only
(`Mention.Of.replaces`). What is not for a caller's text or a path is a word from a
list of the command line's own, or the value of an argument that is no free text
(`CommandForm.HasWord`, `CommandForm.Speaks`).
-/

set_option autoImplicit false

namespace ShaderChain.Adapter

/-! ## Forms -/

/-- The paths on a command line: of the input, of what the program has to write, and of a listing
that it may write. -/
structure LinePaths where
  input : Path
  object : Path
  listing : Path

/-- What fills the places of a form. -/
structure Filling extends LinePaths where
  entry : String
  options : List String

/-- A place in a command line: for a text of its own, or for what the caller chooses. -/
inductive Place where
  | word (text : String)
  | entry
  | options
  | input
  | object
  | listing
deriving DecidableEq

/-- The arguments at a place. -/
def Place.fill (filling : Filling) : Place → List String
  | word text => [text]
  | entry => [filling.entry]
  | options => filling.options
  | input => [filling.input.text]
  | object => [filling.object.text]
  | listing => [filling.listing.text]

/-- The command line of a form. -/
def fillForm (filling : Filling) (form : List Place) : List String :=
  form.flatMap (Place.fill filling)

/-- Where a place stands in a form: nowhere, once, or once and right behind a flag. -/
inductive Mention where
  | never
  | once
  | after (flag : String)

/-- Whether a place stands in a form where it is said to. -/
def Mention.Of (place : Place) (form : List Place) : Mention → Prop
  | never => place ∉ form
  | once => ∃ before behind, form = before ++ place :: behind ∧ place ∉ before ∧ place ∉ behind
  | after flag => ∃ before behind, form = before ++ .word flag :: place :: behind ∧
      place ∉ before ∧ place ∉ behind

/-- Whether two command lines are the same but for the entry point, which stands where it is said
to. -/
def Mention.Replaces (entry other : String) (line otherLine : List String) : Mention → Prop
  | never => otherLine = line
  | once => ∃ before behind, line = before ++ entry :: behind ∧
      otherLine = before ++ other :: behind
  | after flag => ∃ before behind, line = before ++ flag :: entry :: behind ∧
      otherLine = before ++ flag :: other :: behind

section Forms

variable {filling : Filling}

@[simp]
theorem fillForm_append (front back : List Place) :
    fillForm filling (front ++ back) = fillForm filling front ++ fillForm filling back :=
  List.flatMap_append

@[simp]
theorem fillForm_cons (place : Place) (form : List Place) :
    fillForm filling (place :: form) = place.fill filling ++ fillForm filling form :=
  List.flatMap_cons

@[simp]
theorem fillForm_nil : fillForm filling [] = [] := rfl

/-- Words stand as they are. -/
@[simp]
theorem fillForm_words (texts : List String) : fillForm filling (texts.map .word) = texts := by
  induction texts with
  | nil => rfl
  | cons text rest ih =>
    rw [List.map_cons, fillForm_cons, ih]
    rfl

/-- Where a place stands is not changed by what stands in front, if that has no such place. -/
theorem Mention.Of.skip {place : Place} {mention : Mention} {front back : List Place}
    (absent : place ∉ front) (there : mention.Of place back) : mention.Of place (front ++ back) := by
  cases mention with
  | never => simp_all [Mention.Of]
  | once =>
    obtain ⟨before, behind, rfl, notBefore, notBehind⟩ := there
    exact ⟨front ++ before, behind, by simp, by simp [absent, notBefore], notBehind⟩
  | after flag =>
    obtain ⟨before, behind, rfl, notBefore, notBehind⟩ := there
    exact ⟨front ++ before, behind, by simp, by simp [absent, notBefore], notBehind⟩

/-- Nor by what stands behind. -/
theorem Mention.Of.within {place : Place} {mention : Mention} {front back : List Place}
    (there : mention.Of place front) (absent : place ∉ back) : mention.Of place (front ++ back) := by
  cases mention with
  | never => simp_all [Mention.Of]
  | once =>
    obtain ⟨before, behind, rfl, notBefore, notBehind⟩ := there
    exact ⟨before, behind ++ back, by simp, notBefore, by simp [absent, notBehind]⟩
  | after flag =>
    obtain ⟨before, behind, rfl, notBefore, notBehind⟩ := there
    exact ⟨before, behind ++ back, by simp, notBefore, by simp [absent, notBehind]⟩

/-- The part of a form for an entry point that is used under a condition: some words, the flag and
the entry point. -/
def entryPart (used : Prop) [Decidable used] (words : List String) (flag : String) : List Place :=
  if used then words.map Place.word ++ [Place.word flag, Place.entry] else []

theorem mention_entryPart (used : Prop) [Decidable used] (words : List String) (flag : String) :
    (if used then .after flag else .never : Mention).Of .entry (entryPart used words flag) := by
  by_cases isUsed : used
  · simp only [entryPart, if_pos isUsed]
    exact .skip (by simp) ⟨[], [], rfl, by simp, by simp⟩
  · simp [entryPart, isUsed, Mention.Of]

/-- There is no place for anything else. -/
theorem not_mem_entryPart {used : Prop} [Decidable used] {words : List String} {flag : String} :
    .options ∉ entryPart used words flag ∧ .input ∉ entryPart used words flag ∧
      .object ∉ entryPart used words flag ∧ .listing ∉ entryPart used words flag := by
  by_cases isUsed : used
  · simp [entryPart, isUsed]
  · simp [entryPart, isUsed]

theorem fillForm_entryPart (used : Prop) [Decidable used] (words : List String) (flag : String) :
    fillForm filling (entryPart used words flag) =
      if used then words ++ [flag, filling.entry] else [] := by
  by_cases isUsed : used
  · simp only [entryPart, if_pos isUsed, fillForm_append, fillForm_words]
    rfl
  · simp [entryPart, isUsed]

/-- The part of a form for the paths of a compiler that writes a listing besides its output. -/
def pathPart (objectFlag listingFlag : String) : List Place :=
  [.word objectFlag, .object, .word listingFlag, .listing, .input]

theorem mention_pathPart (objectFlag listingFlag : String) :
    Mention.once.Of .input (pathPart objectFlag listingFlag) ∧
      (Mention.after objectFlag).Of .object (pathPart objectFlag listingFlag) ∧
      (Mention.after listingFlag).Of .listing (pathPart objectFlag listingFlag) :=
  ⟨⟨[.word objectFlag, .object, .word listingFlag, .listing], [], rfl, by simp, by simp⟩,
    ⟨[], _, rfl, by simp, by simp⟩,
    ⟨[.word objectFlag, .object], _, rfl, by simp, by simp⟩⟩

/-- There is no place for a free text. -/
theorem not_mem_pathPart {objectFlag listingFlag : String} :
    .entry ∉ pathPart objectFlag listingFlag ∧ .options ∉ pathPart objectFlag listingFlag := by
  simp [pathPart]

/-- A form without a place for the entry point has one line for all of them. -/
theorem fillForm_of_not_mem {form : List Place} (absent : .entry ∉ form) (other : String) :
    fillForm { filling with entry := other } form = fillForm filling form := by
  induction form with
  | nil => rfl
  | cons place rest ih =>
    obtain ⟨here, later⟩ := not_or.1 (absent ∘ List.mem_cons.2)
    rw [fillForm_cons, fillForm_cons, ih later]
    cases place with
    | entry => contradiction
    | word text => rfl
    | options => rfl
    | input => rfl
    | object => rfl
    | listing => rfl

/-- **Another entry point changes its own place only.** -/
theorem Mention.Of.replaces {form : List Place} {mention : Mention}
    (mentioned : mention.Of .entry form) (other : String) :
    mention.Replaces filling.entry other (fillForm filling form)
      (fillForm { filling with entry := other } form) := by
  cases mention with
  | never => exact fillForm_of_not_mem mentioned other
  | once =>
    obtain ⟨before, behind, rfl, notBefore, notBehind⟩ := mentioned
    refine ⟨fillForm filling before, fillForm filling behind, ?_, ?_⟩
    · rw [fillForm_append, fillForm_cons]
      rfl
    · rw [fillForm_append, fillForm_cons, fillForm_of_not_mem notBefore,
        fillForm_of_not_mem notBehind]
      rfl
  | after flag =>
    obtain ⟨before, behind, rfl, notBefore, notBehind⟩ := mentioned
    refine ⟨fillForm filling before, fillForm filling behind, ?_, ?_⟩
    · rw [fillForm_append, fillForm_cons, fillForm_cons]
      rfl
    · rw [fillForm_append, fillForm_cons, fillForm_cons, fillForm_of_not_mem notBefore,
        fillForm_of_not_mem notBehind]
      rfl

end Forms

/-! ## Arguments that differ in their free texts -/

/-- Whether an argument is a free text. -/
def IsFree (name : String) : Prop := name = entryPointName ∨ name = extraOptionsName

instance (name : String) : Decidable (IsFree name) :=
  inferInstanceAs (Decidable (name = entryPointName ∨ name = extraOptionsName))

/-- The text of an argument; an argument that is not there, or is no text, has none. -/
def textOf (args : BoundArguments) (name : String) : String :=
  (args.string name).toOption.getD ""

/-- Whether two sets of arguments say the same, but perhaps for the free texts. -/
def SameButFree (args other : BoundArguments) : Prop :=
  ∀ name, ¬ IsFree name → other.get? name = args.get? name

namespace SameButFree

variable {args other : BoundArguments} {name : String}

theorem string (same : SameButFree args other) (notFree : ¬ IsFree name) :
    other.string name = args.string name := by
  rw [BoundArguments.string, BoundArguments.string, BoundArguments.typed, same name notFree]
  rfl

theorem boolean (same : SameButFree args other) (notFree : ¬ IsFree name) :
    other.boolean name = args.boolean name := by
  rw [BoundArguments.boolean, BoundArguments.boolean, BoundArguments.typed, same name notFree]
  rfl

theorem integerText (same : SameButFree args other) (notFree : ¬ IsFree name) :
    integerText other name = integerText args name := by
  rw [Adapter.integerText, Adapter.integerText, BoundArguments.integer, BoundArguments.integer,
    BoundArguments.typed, same name notFree]
  rfl

end SameButFree

theorem string_eq_textOf {args : BoundArguments} {schema : List Parameter} {name : String}
    (fits : args.Fits schema) (declared : Declares schema name .text) :
    args.string name = .ok (textOf args name) := by
  obtain ⟨text, isText⟩ := fits.string declared
  rw [textOf, isText]
  rfl

/-- The value of a choice is one of its texts. -/
theorem textOf_mem {args : BoundArguments} {schema : List Parameter} {name : String}
    {allowed : List String} (fits : args.Fits schema)
    (declared : ∃ p ∈ schema, p.name = name ∧ p.kind = .choice allowed) :
    textOf args name ∈ allowed := by
  obtain ⟨p, declared, rfl, isChoice⟩ := declared
  obtain ⟨value, bound, admitted⟩ := fits p declared
  rw [isChoice] at admitted
  rw [textOf, BoundArguments.string, BoundArguments.typed, bound]
  cases value with
  | string value => exact admitted
  | bool value => exact admitted.elim
  | int value => exact admitted.elim

/-- Arguments that were bound with one raw text under a name have one value under it. -/
theorem get?_eq_of_bind {schema : List Parameter} {raw otherRaw : Table String}
    {args other : BoundArguments} {name : String} (distinct : (schema.map Parameter.name).Nodup)
    (bound : bind schema raw = .ok args) (otherBound : bind schema otherRaw = .ok other)
    (same : otherRaw.get? name = raw.get? name) : other.get? name = args.get? name := by
  by_cases declared : name ∈ schema.map Parameter.name
  · obtain ⟨p, member, rfl⟩ := List.mem_map.1 declared
    obtain ⟨value, found, parsed⟩ := get?_of_bind bound distinct member
    obtain ⟨otherValue, otherFound, otherParsed⟩ := get?_of_bind otherBound distinct member
    rw [Parameter.rawValue_congr same, parsed] at otherParsed
    cases otherParsed
    rw [found, otherFound]
  · rw [(lacks_of_bind bound declared).get?, (lacks_of_bind otherBound declared).get?]

/-- A free text is the caller's text as it is, or else the default. -/
theorem textOf_of_bind {schema : List Parameter} {raw : Table String} {args : BoundArguments}
    {p : Parameter} (distinct : (schema.map Parameter.name).Nodup)
    (bound : bind schema raw = .ok args) (member : p ∈ schema) (free : p.kind = .string) :
    textOf args p.name = p.rawValue raw := by
  obtain ⟨value, found, parsed⟩ := get?_of_bind bound distinct member
  rw [Parameter.parse, free] at parsed
  cases parsed
  rw [textOf, BoundArguments.string, BoundArguments.typed, found]
  rfl

/-! ## Forms of command lines -/

/-- What fills a form for some arguments and paths. -/
def fillingOf (args : BoundArguments) (paths : LinePaths) : Filling :=
  ⟨paths, textOf args entryPointName, Text.words (textOf args extraOptionsName)⟩

/-- A command line of an adapter, its words, and where the caller's texts and paths stand in it. -/
structure CommandForm where
  descriptor : ToolDescriptor
  /-- The command line for input in a language. -/
  line : BoundArguments → String → LinePaths → Except ToolError (List String)
  /-- The words that are its own, without the flags of outputs. -/
  words : List String
  /-- The parameters whose values are words too, each with the text in front of the value. -/
  values : List (String × String)
  /-- Where an entry point stands, for input in a language. -/
  entry : String → String → Mention
  options : Mention
  object : Mention
  listing : Mention

namespace CommandForm

variable (f : CommandForm)

/-- The parameters of the tool, with the one that selects a version. -/
def schema (toolchain : Toolchain) : List Parameter :=
  (f.descriptor.withParameter (toolchain.versionParameter f.descriptor.name)).parameters

/-- Whether the places for the caller's texts and paths stand in a form where they are said to. -/
structure Mentions (language entry : String) (form : List Place) : Prop where
  entry : (f.entry language entry).Of .entry form
  options : f.options.Of .options form
  input : Mention.once.Of .input form
  object : f.object.Of .object form
  listing : f.listing.Of .listing form

/-- Whether a text is a word of the command line for some arguments: one of its own, or the value
of an argument with some text in front. Such an argument is no free text, so its value is one of a
list, a truth value, or an integer between bounds. -/
inductive HasWord (args : BoundArguments) : String → Prop where
  | own {text : String} (member : text ∈ f.words) : HasWord args text
  | value {front : String} {p : Parameter} {value : ArgumentValue}
      (member : (front, p.name) ∈ f.values) (declared : p ∈ f.descriptor.parameters)
      (notFree : p.kind ≠ .string) (bound : args.get? p.name = some value)
      (admitted : p.kind.Admits value) : HasWord args (front ++ value.display)

/-- Whether the words of a form are those of the command line. The flag of an output stands only in
front of the place for that output. -/
inductive Speaks (args : BoundArguments) : List Place → Prop where
  | nil : Speaks args []
  | word {text : String} {rest : List Place} (isWord : f.HasWord args text)
      (later : Speaks args rest) : Speaks args (.word text :: rest)
  | entry {rest : List Place} (later : Speaks args rest) : Speaks args (.entry :: rest)
  | options {rest : List Place} (later : Speaks args rest) : Speaks args (.options :: rest)
  | input {rest : List Place} (later : Speaks args rest) : Speaks args (.input :: rest)
  | object {rest : List Place} (unflagged : f.object = .once) (later : Speaks args rest) :
      Speaks args (.object :: rest)
  | flaggedObject {flag : String} {rest : List Place} (flagged : f.object = .after flag)
      (later : Speaks args rest) : Speaks args (.word flag :: .object :: rest)
  | flaggedListing {flag : String} {rest : List Place} (flagged : f.listing = .after flag)
      (later : Speaks args rest) : Speaks args (.word flag :: .listing :: rest)

/-- For arguments there is a form with the words of the command line that makes the line of all
arguments that say the same but for the free texts, and with all paths. An empty entry point may
have another form. -/
def HasForm (language : String) (args : BoundArguments) : Prop :=
  ∃ form, f.Mentions language (textOf args entryPointName) form ∧ f.Speaks args form ∧
    ∀ other : BoundArguments, other.Fits f.descriptor.parameters → SameButFree args other →
      (textOf other entryPointName = "" ↔ textOf args entryPointName = "") →
        ∀ paths, f.line other language paths = .ok (fillForm (fillingOf other paths) form)

end CommandForm

variable {args other : BoundArguments}

namespace CommandForm

variable {f : CommandForm} {front name : String}

theorem Speaks.append {form more : List Place} (speaks : f.Speaks args form)
    (later : f.Speaks args more) : f.Speaks args (form ++ more) := by
  induction speaks with
  | nil => exact later
  | word isWord _ ih => exact .word isWord ih
  | entry _ ih => exact .entry ih
  | options _ ih => exact .options ih
  | input _ ih => exact .input ih
  | object unflagged _ ih => exact .object unflagged ih
  | flaggedObject flagged _ ih => exact .flaggedObject flagged ih
  | flaggedListing flagged _ ih => exact .flaggedListing flagged ih

theorem speaks_words {texts : List String} (are : ∀ text ∈ texts, f.HasWord args text) :
    f.Speaks args (texts.map .word) := by
  induction texts with
  | nil => exact .nil
  | cons text rest ih =>
    obtain ⟨here, later⟩ := List.forall_mem_cons.1 are
    exact .word here (ih later)

theorem speaks_entryPart {used : Prop} [Decidable used] {words : List String} {flag : String}
    (own : flag :: words ⊆ f.words) : f.Speaks args (entryPart used words flag) := by
  by_cases isUsed : used
  · rw [entryPart, if_pos isUsed]
    have are : ∀ text ∈ words, f.HasWord args text := fun text member =>
      .own (own (List.mem_cons_of_mem flag member))
    exact (speaks_words are).append (.word (.own (own List.mem_cons_self)) (.entry .nil))
  · rw [entryPart, if_neg isUsed]
    exact .nil

theorem speaks_pathPart {objectFlag listingFlag : String} (object : f.object = .after objectFlag)
    (listing : f.listing = .after listingFlag) :
    f.Speaks args (pathPart objectFlag listingFlag) :=
  .flaggedObject object (.flaggedListing listing (.input .nil))

/-- The value of an argument that is no free text is a word where the form has it. -/
theorem hasWord_textOf {text : String} (fits : args.Fits f.descriptor.parameters)
    (member : (front, name) ∈ f.values)
    (declared : ∃ p ∈ f.descriptor.parameters, p.name = name ∧ p.kind ≠ .string ∧
      p.kind.type = .text) (joined : front ++ textOf args name = text) : f.HasWord args text := by
  obtain ⟨p, declared, rfl, notFree, isText⟩ := declared
  obtain ⟨value, bound, admitted⟩ := fits p declared
  have isWord := HasWord.value member declared notFree bound admitted
  rw [← admitted.type_eq] at isText
  cases value with
  | string value =>
    rw [textOf, BoundArguments.string, BoundArguments.typed, bound] at joined
    exact joined ▸ isWord
  | bool value => cases isText
  | int value => cases isText

/-- The same of an integer. -/
theorem hasWord_integerText {digits text : String} (fits : args.Fits f.descriptor.parameters)
    (member : (front, name) ∈ f.values)
    (declared : ∃ p ∈ f.descriptor.parameters, p.name = name ∧ p.kind ≠ .string ∧
      p.kind.type = .integer) (isText : integerText args name = .ok digits)
    (joined : front ++ digits = text) : f.HasWord args text := by
  obtain ⟨p, declared, rfl, notFree, isInteger⟩ := declared
  obtain ⟨value, bound, admitted⟩ := fits p declared
  have isWord := HasWord.value member declared notFree bound admitted
  rw [← admitted.type_eq] at isInteger
  cases value with
  | int value =>
    rw [integerText, BoundArguments.integer, BoundArguments.typed, bound] at isText
    cases isText
    exact joined ▸ isWord
  | string value => cases isInteger
  | bool value => cases isInteger

/-- The option for the optimization level is a word where both of its kinds are. -/
theorem hasWord_level {none level : String} (fits : args.Fits f.descriptor.parameters)
    (own : none ∈ f.words) (member : (front, optimizationLevelName) ∈ f.values)
    (declared : ∃ p ∈ f.descriptor.parameters, p.name = optimizationLevelName ∧ p.kind ≠ .string ∧
      p.kind.type = .integer)
    (isLevel : (do
      if ← args.boolean disableOptimizationsName then return none
      return front ++ (← integerText args optimizationLevelName) : Except ToolError String) =
        .ok level) : f.HasWord args level := by
  cases disabled : args.boolean disableOptimizationsName with
  | error error =>
    rw [disabled] at isLevel
    cases isLevel
  | ok disables =>
    rw [disabled] at isLevel
    cases disables with
    | true =>
      cases isLevel
      exact .own own
    | false =>
      cases isText : integerText args optimizationLevelName with
      | error error =>
        rw [isText] at isLevel
        cases isLevel
      | ok digits =>
        rw [isText] at isLevel
        cases isLevel
        exact hasWord_integerText fits member declared isText rfl

end CommandForm

end ShaderChain.Adapter
