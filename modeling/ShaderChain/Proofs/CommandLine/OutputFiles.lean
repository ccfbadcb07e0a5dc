import ShaderChain.CommandLine.Handler
import ShaderChain.Machine.Launch
import ShaderChain.Proofs.CommandLine.Slug
import ShaderChain.Proofs.Machine.Files
import ShaderChain.Proofs.Path
import ShaderChain.Proofs.Text.Utf8

/-!
# Output files read back

The artifacts that a run leaves in a directory can be the inputs of other runs:
the language is recognised by the name of the file, and what is read is the
artifact (`outputs_read_back`). This holds of artifacts in a language that has an
extension of its own, whose payload is text or bytes as the language is.

Nothing is overwritten, whatever the tools and outputs are called: after the
number of the step there is a dash, and in the name of an artifact no other
output of the step has a point where it has one.
-/

set_option autoImplicit false

namespace ShaderChain

namespace Language

/-- The languages with an extension of their own. -/
def wellKnown : List String := [hlsl, glsl, slang, metal, dxbc, dxil, spirv]

/-- A well-known language is recognised by its extension. -/
theorem ofExtension?_fileExtension {language : String} (known : language ∈ wellKnown) :
    ofExtension? (fileExtension language) = some language := by
  have all : ∀ language ∈ wellKnown, ofExtension? (fileExtension language) = some language := by
    decide
  exact all language known

end Language

namespace CommandLine

/-! ## Names -/

/-- The form of a name has no slash and no point. -/
theorem plain_slug {name : String} {c : Char} (member : c ∈ (slug name).toList) :
    c ≠ '/' ∧ c ≠ '.' := by
  have small := (tidy_slug name).chars c member
  constructor
  all_goals
    rintro rfl
    revert small
    decide

/-- The digits of the number of a step. -/
theorem isDigit_of_mem {index : Nat} {c : Char} (member : c ∈ Nat.toDigits 10 (index + 1)) :
    c.isDigit = true :=
  Nat.isDigit_of_mem_toDigits (by decide) (by decide) member

theorem toList_stepPart (index : Nat) (tool : String) :
    (stepPart index tool).toList = Nat.toDigits 10 (index + 1) ++ '-' :: (slug tool).toList := by
  rw [stepPart, Integer.naturalText, String.toList_append, String.toList_append,
    String.toList_ofList, List.append_assoc]
  rfl

/-- Whether a name belongs to a step: after the number of the step there is a dash. -/
def OfStep (index : Nat) (name : String) : Prop :=
  '/' ∉ name.toList ∧ ∃ rest, name.toList = Nat.toDigits 10 (index + 1) ++ '-' :: rest

namespace OfStep

/-- A name belongs to one step. -/
theorem index_eq {first second : Nat} {name : String} (ofFirst : OfStep first name)
    (ofSecond : OfStep second name) : first = second := by
  have number {index : Nat} {rest : List Char}
      (text : name.toList = Nat.toDigits 10 (index + 1) ++ '-' :: rest) :
      name.toList.takeWhile Char.isDigit = Nat.toDigits 10 (index + 1) := by
    rw [text, List.takeWhile_append_of_pos fun c => isDigit_of_mem]
    exact List.append_nil _
  obtain ⟨_, _, firstText⟩ := ofFirst
  obtain ⟨_, _, secondText⟩ := ofSecond
  have digits := (number firstText).symm.trans (number secondText)
  have numbers : first + 1 = second + 1 := by
    rw [← Nat.ofDigitChars_toDigits (b := 10) (n := first + 1) (by decide) (by decide), digits,
      Nat.ofDigitChars_toDigits (by decide) (by decide)]
  exact Nat.succ.inj numbers

theorem isName {index : Nat} {name : String} (ofStep : OfStep index name) : Path.IsName name := by
  obtain ⟨plain, rest, text⟩ := ofStep
  have dash : '-' ∈ name.toList := by
    rw [text]
    exact List.mem_append_right _ List.mem_cons_self
  exact .of_mem dash (by decide) plain

/-- What goes on from the number of the step and the name of its tool. -/
theorem append (index : Nat) (tool : String) {rest : String} (plain : '/' ∉ rest.toList) :
    OfStep index (stepPart index tool ++ rest) := by
  rw [OfStep, String.toList_append, toList_stepPart, List.append_assoc]
  refine ⟨?_, _, rfl⟩
  intro member
  rcases List.mem_append.1 member with digit | member
  · exact absurd (isDigit_of_mem digit) (by decide)
  · rcases List.mem_cons.1 member with same | member
    · exact absurd same (by decide)
    · rcases List.mem_append.1 member with inSlug | inRest
      · exact (plain_slug inSlug).1 rfl
      · exact plain inRest

end OfStep

/-- The file of an artifact belongs to the step. -/
theorem ofStep_artifactName (index : Nat) (tool : String) (a : Artifact) :
    OfStep index (artifactName (stepPart index tool) a) := by
  rw [artifactName, String.append_assoc]
  refine OfStep.append index tool ?_
  rw [String.toList_append, List.mem_append, not_or]
  exact ⟨by decide, (Language.plain_fileExtension a.language).1⟩

theorem plain_outputExtension (o : StepOutput) : '/' ∉ (outputExtension o).toList := by
  rw [outputExtension]
  cases o.value with
  | text content => exact (by decide : '/' ∉ "txt".toList)
  | binary content =>
    cases o.language with
    | none => exact (by decide : '/' ∉ "bin".toList)
    | some language => exact (Language.plain_fileExtension language).1

/-- The file of an output belongs to the step. -/
theorem ofStep_outputName (index : Nat) (tool : String) (o : StepOutput) :
    OfStep index (outputName (stepPart index tool) o) := by
  rw [outputName, String.append_assoc, String.append_assoc, String.append_assoc]
  refine OfStep.append index tool ?_
  simp only [String.toList_append, List.mem_append, not_or]
  exact ⟨by decide, fun member => (plain_slug member).1 rfl, by decide, plain_outputExtension o⟩

/-- An output has another name than the artifact of its step. -/
theorem outputName_ne_artifactName (start : String) (o : StepOutput) (a : Artifact) :
    outputName start o ≠ artifactName start a := by
  intro same
  rw [outputName, artifactName, String.append_assoc, String.append_assoc, String.append_assoc,
    String.append_assoc] at same
  have texts := congrArg String.toList same
  rw [String.toList_append (s := start), String.toList_append (s := start)] at texts
  have rest := List.append_cancel_left texts
  rw [String.toList_append, String.toList_append (s := ".")] at rest
  exact absurd (List.cons.inj rest).1 (by decide)

/-- The files of a step have names that belong to it. -/
theorem ofStep_of_mem_stepFiles {index : Nat} {tool : String} {r : StepResult}
    {file : String × Bytes} (member : file ∈ stepFiles index tool r) : OfStep index file.1 := by
  rcases List.mem_append.1 member with artifact | output
  · obtain ⟨a, _, rfl⟩ := Option.map_eq_some_iff.1 (Option.mem_toList.1 artifact)
    exact ofStep_artifactName index tool a
  · obtain ⟨o, _, rfl⟩ := List.mem_map.1 output
    exact ofStep_outputName index tool o

/-- The files from a step on have names that belong to this step or a later one. -/
theorem ofStep_of_mem_runFiles {index : Nat} {pairs : List (Step × StepResult)}
    {file : String × Bytes} (member : file ∈ runFiles index pairs) :
    ∃ later, index ≤ later ∧ OfStep later file.1 := by
  induction pairs generalizing index with
  | nil => contradiction
  | cons pair rest ih =>
    obtain ⟨step, result⟩ := pair
    rcases List.mem_append.1 member with here | after
    · exact ⟨index, Nat.le_refl _, ofStep_of_mem_stepFiles here⟩
    · obtain ⟨later, le, ofStep⟩ := ih after
      exact ⟨later, Nat.le_of_succ_le le, ofStep⟩

/-- **An artifact is not overwritten**: no file after its own has the same name. -/
theorem exists_split_runFiles {pairs : List (Step × StepResult)} {i : Nat} {step : Step}
    {result : StepResult} {a : Artifact} (found : pairs[i]? = some (step, result))
    (pipeable : result.pipeable = some a) (index : Nat) :
    ∃ before after, runFiles index pairs =
        before ++ (artifactName (stepPart (index + i) step.tool) a, a.payload.bytes) :: after ∧
      artifactName (stepPart (index + i) step.tool) a ∉ after.map Prod.fst := by
  induction pairs generalizing i index with
  | nil => contradiction
  | cons pair rest ih =>
    cases i with
    | zero =>
      cases found
      refine ⟨[], result.outputs.map (fun o => (outputName (stepPart index step.tool) o,
        o.value.bytes)) ++ runFiles (index + 1) rest, ?_, ?_⟩
      · rw [runFiles, stepFiles, pipeable]
        rfl
      · intro member
        obtain ⟨file, fileMember, same⟩ := List.mem_map.1 member
        rcases List.mem_append.1 fileMember with output | after
        · obtain ⟨o, _, rfl⟩ := List.mem_map.1 output
          exact outputName_ne_artifactName _ o a same
        · obtain ⟨later, le, ofStep⟩ := ofStep_of_mem_runFiles after
          rw [same] at ofStep
          have index_eq := ofStep.index_eq (ofStep_artifactName index step.tool a)
          omega
    | succ i =>
      obtain ⟨before, after, split, last⟩ := ih found (index + 1)
      rw [Nat.add_right_comm index 1 i] at split last
      refine ⟨stepFiles index pair.1.tool pair.2 ++ before, after, ?_, last⟩
      rw [runFiles, split, List.append_assoc, ← Nat.add_assoc]

/-! ## Writing -/

variable {σ : Type} {host : Host (StateM σ)} {dir : Path} {proper : σ → Prop}

/-- Writing files succeeds if writing the first does and then writing the others. -/
theorem run_writeFiles_cons {file : String × Bytes} {rest : List (String × Bytes)} {s s' : σ}
    {written : List Path}
    (wrote : (writeFiles host dir (file :: rest)).run.run s = (.ok written, s')) :
    ∃ t more, (host.write (dir.child file.1) file.2).run s = (.ok (), t) ∧
      (writeFiles host dir rest).run.run t = (.ok more, s') ∧
        written = dir.child file.1 :: more := by
  cases first : (host.write (dir.child file.1) file.2).run s with
  | mk result t =>
    rw [writeFiles, run_lift_bind_of first] at wrote
    cases result with
    | error cause => cases wrote
    | ok value =>
      obtain ⟨more, u, later, done⟩ := exists_of_run_bind_ok wrote
      cases done
      exact ⟨t, more, rfl, later, rfl⟩

/-- Writing files changes no other file. -/
theorem read_of_not_mem (law : host.KeepsFiles dir proper) {files : List (String × Bytes)}
    (names : ∀ file ∈ files, Path.IsName file.1) {s s' : σ} (start : proper s) {written : List Path}
    (wrote : (writeFiles host dir files).run.run s = (.ok written, s')) {name : String}
    (isName : Path.IsName name) (other : name ∉ files.map Prod.fst) :
    ((host.read (dir.child name)).run s').1 = ((host.read (dir.child name)).run s).1 := by
  induction files generalizing s written with
  | nil =>
    cases wrote
    rfl
  | cons file rest ih =>
    obtain ⟨isNameHere, names⟩ := List.forall_mem_cons.1 names
    obtain ⟨notHere, other⟩ := not_or.1 (other ∘ List.mem_cons.2)
    obtain ⟨t, more, first, later, _⟩ := run_writeFiles_cons wrote
    rw [ih names (law.writes s t _ _ start isNameHere first) later other]
    exact law.others s t _ _ name start isNameHere isName notHere first

/-- A file that is not written again afterwards holds what was written to it. -/
theorem read_of_mem (law : host.KeepsFiles dir proper) {before after : List (String × Bytes)}
    {file : String × Bytes} (names : ∀ other ∈ before ++ file :: after, Path.IsName other.1)
    (last : file.1 ∉ after.map Prod.fst) {s s' : σ} (start : proper s) {written : List Path}
    (wrote : (writeFiles host dir (before ++ file :: after)).run.run s = (.ok written, s')) :
    dir.child file.1 ∈ written ∧ ((host.read (dir.child file.1)).run s').1 = .ok file.2 := by
  induction before generalizing s written with
  | nil =>
    obtain ⟨isName, names⟩ := List.forall_mem_cons.1 names
    obtain ⟨t, more, first, later, rfl⟩ := run_writeFiles_cons wrote
    refine ⟨List.mem_cons_self, ?_⟩
    rw [read_of_not_mem law names (law.writes s t _ _ start isName first) later isName last]
    exact law.written s t _ _ start isName first
  | cons earlier before ih =>
    obtain ⟨isName, names⟩ := List.forall_mem_cons.1 names
    obtain ⟨t, more, first, later, rfl⟩ := run_writeFiles_cons wrote
    obtain ⟨member, read⟩ := ih names (law.writes s t _ _ start isName first) later
    exact ⟨List.mem_cons_of_mem _ member, read⟩

/-! ## Reading -/

/-- Whether an artifact is one that a file can tell: its language has an extension, and the payload
is bytes if programs in the language are bytecode, and text otherwise. -/
def Recognised (a : Artifact) : Prop :=
  a.language ∈ Language.wellKnown ∧
    match a.payload with
    | .text _ => Language.isBinary a.language = false
    | .binary _ => Language.isBinary a.language = true

/-- The bytes of a recognised artifact make the artifact. -/
theorem artifactOf_bytes {a : Artifact} (recognised : Recognised a) :
    artifactOf a.language a.payload.bytes = a := by
  obtain ⟨language, payload⟩ := a
  obtain ⟨_, kind⟩ := recognised
  cases payload with
  | text content =>
    change Language.isBinary language = false at kind
    have decoded : Text.decode? (Payload.text content).bytes = some content :=
      Text.decode?_encode content
    rewrite [artifactOf, kind, if_neg Bool.false_ne_true, decoded]
    rfl
  | binary content =>
    change Language.isBinary language = true at kind
    rw [artifactOf, kind]
    rfl

/-- The path of an artifact's file tells the language. -/
theorem inferLanguage_child (dir : Path) (index : Nat) (tool : String) {a : Artifact}
    (recognised : Recognised a) :
    inferLanguage (dir.child (artifactName (stepPart index tool) a)) = some a.language := by
  have isName := (ofStep_artifactName index tool a).isName
  have nonempty : stepPart index tool ≠ "" := by
    intro empty
    have text := toList_stepPart index tool
    rw [empty] at text
    exact absurd text.symm (List.append_ne_nil_of_right_ne_nil _ (List.cons_ne_nil _ _))
  rw [inferLanguage, artifactName, Path.extension?_child dir isName nonempty
    (Language.plain_fileExtension a.language).2]
  exact Language.ofExtension?_fileExtension recognised.1

/-- **What a run leaves in a directory can be read back**: after its files are written, the file of
each recognised artifact is among them, its path tells the language, and reading it gives the
artifact. -/
theorem outputs_read_back {σ : Type} {host : Host (StateM σ)} {dir : Path} {proper : σ → Prop}
    (law : host.KeepsFiles dir proper) {steps : List Step} {results : List StepResult} {s s' : σ}
    (start : proper s) {written : List Path}
    (wrote : (writeOutputs host dir (steps.zip results)).run.run s = (.ok written, s')) :
    ∀ i step result a, steps[i]? = some step → results[i]? = some result →
      result.pipeable = some a → Recognised a →
        let path := dir.child (artifactName (stepPart i step.tool) a)
        path ∈ written ∧ inferLanguage path = some a.language ∧
          ((readInput host path a.language).run.run s').1 = .ok a := by
  intro i step result a stepAt resultAt pipeable recognised
  have pairAt : (steps.zip results)[i]? = some (step, result) :=
    List.getElem?_zip_eq_some.2 ⟨stepAt, resultAt⟩
  obtain ⟨before, after, split, last⟩ := exists_split_runFiles pairAt pipeable 0
  rw [Nat.zero_add] at split last
  have names : ∀ file ∈ runFiles 0 (steps.zip results), Path.IsName file.1 := by
    intro file member
    obtain ⟨_, _, ofStep⟩ := ofStep_of_mem_runFiles member
    exact ofStep.isName
  cases made : (host.makeDirectories dir).run s with
  | mk answer t =>
    rw [writeOutputs, run_lift_bind_of made] at wrote
    cases answer with
    | error cause => cases wrote
    | ok value =>
      dsimp only at wrote
      rw [split] at names wrote
      obtain ⟨member, read⟩ := read_of_mem law names last (law.makes s t start made) wrote
      refine ⟨member, inferLanguage_child dir i step.tool recognised, ?_⟩
      cases reading : (host.read (dir.child (artifactName (stepPart i step.tool) a))).run s' with
      | mk content u =>
        rw [reading] at read
        dsimp only at read
        rw [readInput, run_lift_bind_of reading, read]
        exact congrArg Except.ok (artifactOf_bytes recognised)

/-- The steps of a run whose tools have awkward names. -/
def awkwardSteps : List Step := [.ofTool "../Fxc.exe", .ofTool "2-"]

/-- The results of a run whose outputs have the names of others. -/
def awkwardResults : List StepResult :=
  [.forward (.binary Language.dxbc [0xFF, 0x00])
    [.text ".dxbc" (some Language.dxbc) "", .binary "" (some Language.dxbc) [0x01]],
   .forward (.text Language.glsl "é") [.text "GLSL" none "x", .text "glsl" none "y"]]

/-- What did not fail has a result. -/
theorem exists_of_toBool_fst {ε α σ : Type} {answer : Except ε α × σ}
    (ok : answer.1.toBool = true) : ∃ value s, answer = (.ok value, s) := by
  obtain ⟨result, s⟩ := answer
  cases result with
  | error failure => contradiction
  | ok value => exact ⟨value, s, rfl⟩

/-- The second of the outputs is read back on a machine that had no files. -/
theorem outputs_read_back_awkward :
    let machine : Machine := ⟨.empty, .root, .empty, 0⟩
    let path : Path := ⟨"out/2-2.glsl"⟩
    let a : Artifact := .text Language.glsl "é"
    machine.files.Plain ∧ ∃ written machine',
      (writeOutputs Machine.scriptHost ⟨"out"⟩ (awkwardSteps.zip awkwardResults)).run.run machine =
          (.ok written, machine') ∧
        path ∈ written ∧ inferLanguage path = some Language.glsl ∧
        ((readInput Machine.scriptHost path Language.glsl).run.run machine').1 = .ok a := by
  intro machine path a
  have plain : machine.files.Plain := nofun
  have recognised : Recognised a := ⟨by decide, rfl⟩
  have name : (⟨"out"⟩ : Path).child (artifactName (stepPart 1 "2-") a) = path := by
    decide +kernel
  have succeeds : ((writeOutputs Machine.scriptHost ⟨"out"⟩
      (awkwardSteps.zip awkwardResults)).run.run machine).1.toBool = true := by
    decide +kernel
  obtain ⟨written, machine', wrote⟩ := exists_of_toBool_fst succeeds
  have law := Machine.keepsFiles Machine.launch ⟨"out"⟩
  have back := outputs_read_back law plain wrote 1 (.ofTool "2-")
    (.forward a [.text "GLSL" none "x", .text "glsl" none "y"]) a rfl rfl rfl recognised
  have tool : (Step.ofTool "2-").tool = "2-" := rfl
  rw [tool, name] at back
  exact ⟨plain, written, machine', wrote, back⟩

end CommandLine

end ShaderChain
