import Mathlib.Data.List.Forall2
import ShaderChain.CommandLine.StepText
import ShaderChain.Proofs.Table
import ShaderChain.Proofs.Text.Blank
import ShaderChain.Proofs.Text.Split

/-!
# What writes a step

A text writes a step if it is the name of a tool, or the name, a colon and pieces
with commas between them, each of which is blank or writes a key, an equals sign
and a value (`Spells`). Blanks may stand around the name, the keys and the
values; of the values of a key the last counts. A colon may stand in the pieces
and an equals sign in the values, since the first of each cuts.

What is read is what is written (`parseStep_eq_ok_iff`). Every cut leaves texts
without its mark, and stripping a piece strips its key in front and its value
behind (`writesArguments_iff`), so a piece can be read before or after it is
stripped. That there is no step is a matter of blanks and marks alone
(`exists_parseStep_iff`).
-/

set_option autoImplicit false

namespace ShaderChain.CommandLine

/-! ## Spelling -/

/-- Whether a text has no content. -/
def Blank (text : List Char) : Prop := ∀ c ∈ text, Text.isBlank c = true

/-- Whether a text names a tool: a name with content and without a colon, with blanks around. -/
structure Names (text : List Char) (tool : String) : Prop where
  stripped : Text.Stripped text tool.toList
  nonempty : tool ≠ ""
  noColon : ':' ∉ tool.toList

/-- What a piece of a text writes: nothing if it is blank, or a value for a key. -/
inductive WritesArguments : List Char → List (String × String) → Prop where
  | nothing {text : List Char} (blank : Blank text) :
      WritesArguments text []
  | argument {keyText valueText : List Char} {key value : String}
      (isKey : Text.Stripped keyText key.toList) (isValue : Text.Stripped valueText value.toList)
      (noEquals : '=' ∉ key.toList) (noComma : ',' ∉ key.toList)
      (noCommaInValue : ',' ∉ value.toList) :
      WritesArguments (keyText ++ '=' :: valueText) [(key, value)]

/-- Whether a text writes a step. -/
inductive Spells : List Char → Step → Prop where
  | bare {text : List Char} {step : Step} (names : Names text step.tool)
      (without : step.arguments = .empty) : Spells text step
  | called {text : List Char} {pieces : List (List Char)} {written : List (List (String × String))}
      {step : Step} (names : Names text step.tool) (nonempty : pieces ≠ [])
      (writes : List.Forall₂ WritesArguments pieces written)
      (arguments : ∀ key, step.arguments.get? key = written.flatten.reverse.lookup key) :
      Spells (text ++ ':' :: [','].intercalate pieces) step

/-! ## Marks -/

/-- Where there are only blanks around, a mark is no more than in the text inside. -/
theorem not_mem_of_stripped {c : Char} {text core : List Char} (content : Text.isBlank c = false)
    (stripped : Text.Stripped text core) (absent : c ∉ core) : c ∉ text := by
  rw [Text.stripped_iff.1 stripped, Text.mem_strip_iff content] at absent
  exact absent

/-- What writes arguments has no comma. -/
theorem WritesArguments.noComma {piece : List Char} {written : List (String × String)}
    (writes : WritesArguments piece written) : ',' ∉ piece := by
  cases writes with
  | nothing blank => exact fun member => absurd (blank _ member) (by decide)
  | argument isKey isValue _ noComma noCommaInValue =>
    have inKey := not_mem_of_stripped (by decide) isKey noComma
    have inValue := not_mem_of_stripped (by decide) isValue noCommaInValue
    simp [inKey, inValue]

theorem noComma_of_writes {pieces : List (List Char)} {written : List (List (String × String))}
    (writes : List.Forall₂ WritesArguments pieces written) : ∀ piece ∈ pieces, ',' ∉ piece := by
  induction writes with
  | nil => exact List.forall_mem_nil _
  | cons here _ ih => exact List.forall_mem_cons.2 ⟨here.noComma, ih⟩

theorem toList_stripped (cs : List Char) : (stripped cs).toList = Text.strip cs := by
  rw [stripped, String.toList_ofList]

theorem stripped_eq_iff {cs : List Char} {s : String} :
    stripped cs = s ↔ Text.Stripped cs s.toList := by
  rw [Text.stripped_iff, ← toList_stripped, String.toList_inj]
  exact eq_comm

/-- What a piece without commas writes is read off the piece without the blanks around it. -/
theorem writesArguments_iff {piece : List Char} {written : List (String × String)}
    (noComma : ',' ∉ piece) :
    WritesArguments piece written ↔
      Text.strip piece = [] ∧ written = [] ∨
      ∃ key value, Text.splitFirst? '=' (Text.strip piece) = some (key, value) ∧
        written = [(stripped key, stripped value)] := by
  constructor
  · intro writes
    cases writes with
    | nothing blank => exact .inl ⟨Text.strip_eq_nil_iff.2 blank, rfl⟩
    | @argument keyText valueText key value isKey isValue noEquals =>
      refine .inr ⟨keyText.dropWhile Text.isBlank, Text.stripEnd valueText, ?_, ?_⟩
      · have inKey := not_mem_of_stripped (by decide) isKey noEquals
        rw [Text.strip_append_cons (by decide)]
        exact Text.splitFirst?_append _ fun member =>
          inKey ((List.dropWhile_sublist _).subset member)
      · rw [stripped, stripped, Text.strip_dropWhile, Text.strip_stripEnd, ← stripped, ← stripped,
          stripped_eq_iff.2 isKey, stripped_eq_iff.2 isValue]
  · rintro (⟨nothing, rfl⟩ | ⟨key, value, cut, rfl⟩)
    · exact .nothing (Text.strip_eq_nil_iff.1 nothing)
    · obtain ⟨⟨front, back, parts, frontBlank, backBlank⟩, _, _⟩ := Text.stripped_strip piece
      obtain ⟨inside, noEquals⟩ := Text.splitFirst?_eq_some_iff.1 cut
      have text : piece = (front ++ key) ++ '=' :: (value ++ back) := by
        rw [parts, inside]
        simp only [List.append_assoc, List.cons_append]
      have isKey : Text.Stripped (front ++ key) (stripped key).toList := by
        have padded := (Text.stripped_strip key).pad frontBlank (List.forall_mem_nil _)
        rwa [List.append_nil, ← toList_stripped] at padded
      have isValue : Text.Stripped (value ++ back) (stripped value).toList := by
        have padded := (Text.stripped_strip value).pad (List.forall_mem_nil _) backBlank
        rwa [List.nil_append, ← toList_stripped] at padded
      rw [text] at noComma ⊢
      simp only [List.mem_append, List.mem_cons, not_or] at noComma
      obtain ⟨⟨_, noCommaInKey⟩, _, noCommaInValue, _⟩ := noComma
      have inside {c : Char} {cs : List Char} (content : Text.isBlank c = false) (absent : c ∉ cs) :
          c ∉ (stripped cs).toList := by
        rwa [toList_stripped, Text.mem_strip_iff content]
      exact .argument isKey isValue (inside (by decide) noEquals) (inside (by decide) noCommaInKey)
        (inside (by decide) noCommaInValue)

/-- A piece without commas writes something exactly when it is blank or has an equals sign. -/
theorem exists_writesArguments_iff {piece : List Char} (noComma : ',' ∉ piece) :
    (∃ written, WritesArguments piece written) ↔
      Blank piece ∨ '=' ∈ piece := by
  simp only [writesArguments_iff noComma, Blank, ← Text.strip_eq_nil_iff]
  constructor
  · rintro ⟨written, ⟨nothing, _⟩ | ⟨key, value, cut, _⟩⟩
    · exact .inl nothing
    · refine .inr ((Text.mem_strip_iff (by decide)).1 ?_)
      rw [(Text.splitFirst?_eq_some_iff.1 cut).1]
      exact List.mem_append_right _ List.mem_cons_self
  · rintro (nothing | isThere)
    · exact ⟨_, .inl ⟨nothing, rfl⟩⟩
    · have inside := (Text.mem_strip_iff (by decide)).2 isThere
      exact ⟨_, .inr ⟨_, _, Text.splitFirst?_of_mem inside, rfl⟩⟩

/-! ## Reading pieces -/

/-- A step with more arguments, of which the later count. -/
def withArguments (step : Step) (arguments : List (String × String)) : Step :=
  arguments.foldl (fun step argument => step.withArgument argument.1 argument.2) step

theorem withArguments_eq (step : Step) (arguments : List (String × String)) :
    withArguments step arguments =
      ⟨step.tool, arguments.foldl (fun t entry => t.insert entry.1 entry.2) step.arguments⟩ := by
  induction arguments generalizing step with
  | nil => rfl
  | cons argument rest ih => exact ih (step.withArgument argument.1 argument.2)

/-- The step of some arguments is the one with this tool and these arguments. -/
theorem eq_withArguments_iff {step : Step} {tool : String} {arguments : List (String × String)} :
    step = withArguments (.ofTool tool) arguments ↔
      step.tool = tool ∧ ∀ key, step.arguments.get? key = arguments.reverse.lookup key := by
  have found (key : String) : (withArguments (.ofTool tool) arguments).arguments.get? key =
      arguments.reverse.lookup key := by
    rw [withArguments_eq, Table.get?_foldl_insert]
    exact Option.or_none
  constructor
  · rintro rfl
    refine ⟨?_, found⟩
    rw [withArguments_eq]
    rfl
  · rintro ⟨rfl, same⟩
    have arguments_eq := Table.ext_get? fun key => (same key).trans (found key).symm
    rw [withArguments_eq] at arguments_eq ⊢
    exact congrArg (Step.mk step.tool) arguments_eq

/-- What a first piece and others write is what the first writes and then what the others do. -/
theorem exists_writes_cons {piece : List Char} {rest : List (List Char)}
    (holds : List (String × String) → Prop) :
    (∃ written, List.Forall₂ WritesArguments (piece :: rest) written ∧ holds written.flatten) ↔
      ∃ first, WritesArguments piece first ∧
        ∃ written, List.Forall₂ WritesArguments rest written ∧ holds (first ++ written.flatten) := by
  constructor
  · rintro ⟨_, writes, isSo⟩
    cases writes with
    | cons here later => exact ⟨_, here, _, later, isSo⟩
  · rintro ⟨first, here, written, later, isSo⟩
    exact ⟨first :: written, .cons here later, isSo⟩

/-- The arguments that are added are those that the pieces write. -/
theorem addArguments_eq_ok_iff {spec : String} {step result : Step} {pieces : List (List Char)}
    (noComma : ∀ piece ∈ pieces, ',' ∉ piece) :
    addArguments spec step ((pieces.map Text.strip).filter (! ·.isEmpty)) = .ok result ↔
      ∃ written, List.Forall₂ WritesArguments pieces written ∧
        result = withArguments step written.flatten := by
  induction pieces generalizing step with
  | nil =>
    simp only [List.forall₂_nil_left_iff, exists_eq_left]
    exact ⟨fun same => (Except.ok.inj same).symm, fun same => congrArg Except.ok same.symm⟩
  | cons piece rest ih =>
    obtain ⟨noCommaHere, noComma⟩ := List.forall_mem_cons.1 noComma
    rw [List.map_cons]
    refine Iff.trans ?_
      (exists_writes_cons fun arguments => result = withArguments step arguments).symm
    simp only [writesArguments_iff noCommaHere]
    by_cases nothing : Text.strip piece = []
    · rw [nothing, List.filter_cons_of_neg (by simp), ih noComma]
      constructor
      · intro added
        exact ⟨[], .inl ⟨rfl, rfl⟩, added⟩
      · rintro ⟨first, ⟨_, rfl⟩ | ⟨_, _, cut, _⟩, added⟩
        · exact added
        · cases cut
    · rw [List.filter_cons_of_pos (by simpa using nothing), addArguments]
      cases cut : Text.splitFirst? '=' (Text.strip piece) with
      | none => simp [nothing]
      | some parts =>
        obtain ⟨key, value⟩ := parts
        dsimp only
        rw [ih noComma]
        constructor
        · intro added
          exact ⟨_, .inr ⟨key, value, rfl, rfl⟩, added⟩
        · rintro ⟨first, ⟨isNothing, _⟩ | ⟨_, _, same, rfl⟩, added⟩
          · exact absurd isNothing nothing
          · cases same
            exact added

/-- Arguments can be added exactly if there is none among the pieces that writes nothing. -/
theorem exists_addArguments_iff (spec : String) (step : Step) {pieces : List (List Char)}
    (noComma : ∀ piece ∈ pieces, ',' ∉ piece) :
    (∃ result, addArguments spec step ((pieces.map Text.strip).filter (! ·.isEmpty)) =
        .ok result) ↔
      ∀ piece ∈ pieces, Blank piece ∨ '=' ∈ piece := by
  simp only [addArguments_eq_ok_iff noComma]
  induction pieces with
  | nil => simp
  | cons piece rest ih =>
    obtain ⟨noCommaHere, noComma⟩ := List.forall_mem_cons.1 noComma
    rw [List.forall_mem_cons, ← ih noComma, ← exists_writesArguments_iff noCommaHere]
    constructor
    · rintro ⟨result, written, writes, _⟩
      cases writes with
      | cons here later => exact ⟨⟨_, here⟩, _, _, later, rfl⟩
    · rintro ⟨⟨first, here⟩, _, written, later, _⟩
      exact ⟨_, first :: written, .cons here later, rfl⟩

/-! ## Reading steps -/

/-- The text of the tool is what stands before the first colon, and the pieces stand behind it. -/
theorem splitStep_eq (cs : List Char) :
    splitStep cs = (cs.takeWhile (· != ':'), (cs.dropWhile (· != ':')).tail) := by
  rw [splitStep]
  by_cases isThere : ':' ∈ cs
  · rw [Text.splitFirst?_of_mem isThere]
    rfl
  · have passes : ∀ c ∈ cs, (c != ':') = true := by
      intro c member
      rw [bne_iff_ne]
      rintro rfl
      exact isThere member
    rw [Text.splitFirst?_eq_none_iff.2 isThere, List.takeWhile_eq_self_iff.2 passes,
      List.dropWhile_eq_nil_iff.2 passes]
    rfl

/-- A step is read if the text of its tool is not blank and its arguments can be added. -/
theorem parseStep_eq_ok_iff_parts {spec : String} {step : Step} {tool arguments : List Char}
    (split : splitStep spec.toList = (tool, arguments)) :
    parseStep spec = .ok step ↔ Text.strip tool ≠ [] ∧
      ∃ written, List.Forall₂ WritesArguments (Text.splitEvery ',' arguments) written ∧
        step = withArguments (.ofTool (stripped tool)) written.flatten := by
  have isEmpty : (stripped tool).isEmpty = true ↔ Text.strip tool = [] := by
    rw [String.isEmpty_iff, stripped_eq_iff, Text.stripped_iff]
    exact eq_comm
  rw [parseStep, split]
  dsimp only
  by_cases nameless : Text.strip tool = []
  · rw [if_pos (isEmpty.2 nameless)]
    simp [nameless]
  · rw [if_neg (mt isEmpty.1 nameless), argumentPieces,
      addArguments_eq_ok_iff fun piece => Text.not_mem_of_mem_splitEvery]
    exact (and_iff_right nameless).symm

/-- A text without a colon names the tool that is left of it, if anything is. -/
theorem names_iff {text : List Char} (noColon : ':' ∉ text) {tool : String} :
    Names text tool ↔ Text.strip text ≠ [] ∧ stripped text = tool := by
  have nonempty {tool : String} (same : stripped text = tool) :
      tool ≠ "" ↔ Text.strip text ≠ [] := by
    rw [← same, Ne, ← String.toList_eq_nil_iff, toList_stripped]
  constructor
  · intro names
    have same := stripped_eq_iff.2 names.stripped
    exact ⟨(nonempty same).1 names.nonempty, same⟩
  · rintro ⟨isThere, same⟩
    refine ⟨stripped_eq_iff.1 same, (nonempty same).2 isThere, ?_⟩
    rw [← same, toList_stripped, Text.mem_strip_iff (by decide)]
    exact noColon

/-- **What is read is what is written.** -/
theorem parseStep_eq_ok_iff {spec : String} {step : Step} :
    parseStep spec = .ok step ↔ Spells spec.toList step := by
  have colonless {text : List Char} (names : Names text step.tool) : ':' ∉ text :=
    not_mem_of_stripped (by decide) names.stripped names.noColon
  by_cases isThere : ':' ∈ spec.toList
  · obtain ⟨text, behind, parts, noColon⟩ := List.eq_append_cons_of_mem isThere
    have split : splitStep spec.toList = (text, behind) := by
      rw [splitStep, parts, Text.splitFirst?_append behind noColon]
      rfl
    rw [parseStep_eq_ok_iff_parts split, parts]
    constructor
    · rintro ⟨named, written, writes, isStep⟩
      obtain ⟨isTool, arguments⟩ := eq_withArguments_iff.1 isStep
      have names := (names_iff noColon).2 ⟨named, isTool.symm⟩
      have pieces : [','].intercalate (Text.splitEvery ',' behind) = behind := by
        rw [Text.splitEvery_eq_splitOn, List.intercalate_splitOn]
      rw [← pieces]
      exact .called names (Text.splitEvery_ne_nil _ _) writes arguments
    · generalize whole : text ++ ':' :: behind = cs
      rintro (⟨names, _⟩ | ⟨names, nonempty, writes, arguments⟩)
      · refine absurd ?_ (colonless names)
        rw [← whole]
        exact List.mem_append_right _ List.mem_cons_self
      · have cut := Text.splitFirst?_append behind noColon
        rw [whole, Text.splitFirst?_append _ (colonless names)] at cut
        cases cut
        rw [Text.splitEvery_eq_splitOn,
          List.splitOn_intercalate _ (noComma_of_writes writes) nonempty]
        obtain ⟨isThere, isTool⟩ := (names_iff noColon).1 names
        exact ⟨isThere, _, writes, eq_withArguments_iff.2 ⟨isTool.symm, arguments⟩⟩
  · have split : splitStep spec.toList = (spec.toList, []) := by
      rw [splitStep, Text.splitFirst?_eq_none_iff.2 isThere]
      rfl
    have nothing {written : List (List (String × String))} :
        List.Forall₂ WritesArguments (Text.splitEvery ',' []) written ↔ written = [[]] := by
      have writes {first : List (String × String)} : WritesArguments [] first ↔ first = [] := by
        rw [writesArguments_iff List.not_mem_nil]
        simp [Text.strip, Text.stripEnd, Text.splitFirst?]
      simp [Text.splitEvery, List.forall₂_cons_left_iff, writes]
    rw [parseStep_eq_ok_iff_parts split]
    constructor
    · rintro ⟨named, written, writes, rfl⟩
      cases nothing.1 writes
      exact .bare ((names_iff isThere).2 ⟨named, rfl⟩) rfl
    · generalize whole : spec.toList = cs at isThere
      rintro (⟨names, without⟩ | _)
      · obtain ⟨named, isTool⟩ := (names_iff isThere).1 names
        refine ⟨named, [[]], nothing.2 rfl, ?_⟩
        rw [isTool]
        exact congrArg (Step.mk step.tool) without
      · exact absurd (List.mem_append_right _ List.mem_cons_self) isThere

/-- There is a step exactly when the text of the tool is not blank and every piece is blank or has
an equals sign. -/
theorem exists_parseStep_iff {spec : String} :
    (∃ step, parseStep spec = .ok step) ↔
      ¬ Blank (spec.toList.takeWhile (· != ':')) ∧
      ∀ piece ∈ (spec.toList.dropWhile (· != ':')).tail.splitOn ',',
        Blank piece ∨ '=' ∈ piece := by
  simp only [parseStep_eq_ok_iff_parts (splitStep_eq spec.toList), exists_and_left]
  rw [Ne, Text.strip_eq_nil_iff, ← Text.splitEvery_eq_splitOn]
  refine and_congr_right fun _ => ?_
  let tool := stripped (spec.toList.takeWhile (· != ':'))
  have pieces (piece : List Char) (member : piece ∈ Text.splitEvery ','
      (spec.toList.dropWhile (· != ':')).tail) : ',' ∉ piece :=
    Text.not_mem_of_mem_splitEvery member
  rw [← exists_addArguments_iff spec (.ofTool tool) pieces]
  simp only [addArguments_eq_ok_iff pieces]
  exact Iff.rfl

/-! ## Steps that are read -/

/-- Whether a text has no blank at either end. -/
def Trimmed (s : String) : Prop := Text.Stripped s.toList s.toList

theorem trimmed_of_stripped {text : List Char} {s : String}
    (stripped : Text.Stripped text s.toList) : Trimmed s where
  parts := ⟨[], [], by rw [List.nil_append, List.append_nil], List.forall_mem_nil _,
    List.forall_mem_nil _⟩
  head := stripped.head
  last := stripped.last

/-- Whether a key and its value can be written. -/
structure WritableArgument (key value : String) : Prop where
  trimmedKey : Trimmed key
  noEquals : '=' ∉ key.toList
  noComma : ',' ∉ key.toList
  trimmedValue : Trimmed value
  noCommaInValue : ',' ∉ value.toList

/-- Whether the tool of a step and its arguments can be written. -/
structure Writable (step : Step) : Prop where
  tool : Trimmed step.tool
  nonempty : step.tool ≠ ""
  noColon : ':' ∉ step.tool.toList
  arguments : ∀ key value, step.arguments.get? key = some value → WritableArgument key value

/-- What pieces write can be written. -/
theorem writable_of_writes {pieces : List (List Char)} {written : List (List (String × String))}
    (writes : List.Forall₂ WritesArguments pieces written) {argument : String × String}
    (member : argument ∈ written.flatten) : WritableArgument argument.1 argument.2 := by
  induction writes with
  | nil => contradiction
  | cons here _ ih =>
    rcases List.mem_append.1 member with inFirst | later
    · cases here with
      | nothing blank => contradiction
      | argument isKey isValue noEquals noComma noCommaInValue =>
        cases List.mem_singleton.1 inFirst
        exact ⟨trimmed_of_stripped isKey, noEquals, noComma, trimmed_of_stripped isValue,
          noCommaInValue⟩
    · exact ih later

/-- What is spelled can be written. -/
theorem Spells.writable {text : List Char} {step : Step} (spells : Spells text step) :
    Writable step := by
  cases spells with
  | bare names without =>
    refine ⟨trimmed_of_stripped names.stripped, names.nonempty, names.noColon, ?_⟩
    intro key value found
    rw [without] at found
    cases found
  | @called _ _ written _ names _ writes arguments =>
    refine ⟨trimmed_of_stripped names.stripped, names.nonempty, names.noColon, ?_⟩
    intro key value found
    rw [arguments] at found
    obtain ⟨before, after, entries, _⟩ := List.lookup_eq_some_iff.1 found
    have member : (key, value) ∈ written.flatten := by
      rw [← List.mem_reverse, entries]
      exact List.mem_append_right _ List.mem_cons_self
    exact writable_of_writes writes member

/-- **Reading a step** undoes every way to write it and gives nothing else; it fails exactly where
the text of the tool is blank or a piece is not and has no equals sign, and what it gives can be
written. -/
theorem parseStep_exact (spec : String) :
    (∀ step, parseStep spec = .ok step ↔ Spells spec.toList step) ∧
    ((∃ failure, parseStep spec = .error failure) ↔
      Blank (spec.toList.takeWhile (· != ':')) ∨
      ∃ piece ∈ (spec.toList.dropWhile (· != ':')).tail.splitOn ',',
        ¬ Blank piece ∧ '=' ∉ piece) ∧
    ∀ step, parseStep spec = .ok step → Writable step := by
  refine ⟨fun step => parseStep_eq_ok_iff, ?_, ?_⟩
  · have fails : (∃ failure, parseStep spec = .error failure) ↔
        ¬ ∃ step, parseStep spec = .ok step := by
      cases parseStep spec with
      | error failure => simp
      | ok step => simp
    rw [fails, exists_parseStep_iff]
    simp only [not_and_or, not_not, not_forall, not_or, exists_prop]
  · intro step parsed
    exact (parseStep_eq_ok_iff.1 parsed).writable

/-- A text with blanks everywhere, a colon and equals signs in a value, an empty value, blank pieces
and a key written twice. -/
theorem parseStep_exact_awkward :
    let spec := " dxc : A =\t,, EntryPoint = a:b=c ,\n, A = 2 "
    let step : Step := ⟨"dxc", .ofList [("A", "2"), ("EntryPoint", "a:b=c")]⟩
    parseStep spec = .ok step ∧ Spells spec.toList step ∧ Writable step ∧
      ∃ failure, parseStep "dxc:A=1,B" = .error failure := by
  intro spec step
  have parsed : parseStep spec = .ok step := by decide +kernel
  obtain ⟨reads, _, writable⟩ := parseStep_exact spec
  have fails := (parseStep_exact "dxc:A=1,B").2.1
  refine ⟨parsed, (reads step).1 parsed, writable step parsed, fails.2 (.inr ⟨['B'], ?_, ?_, ?_⟩)⟩
  · decide +kernel
  · exact fun blank => absurd (blank 'B' List.mem_cons_self) (by decide)
  · decide

end ShaderChain.CommandLine
