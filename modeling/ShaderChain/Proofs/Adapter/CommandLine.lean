import ShaderChain.Proofs.Adapter.Form
import ShaderChain.Proofs.Text.Runs

/-!
# Command lines and the texts of callers

Each of the seven command lines of the six adapters has a form that does not depend
on what fills it (`CommandForm.HasForm`), of the words that are stated with it. The
further options of `dxc` are the words of their text. `command_lines_have_forms`
puts this together for all arguments that were bound.
-/

set_option autoImplicit false

namespace ShaderChain.Adapter

variable {args other : BoundArguments}

namespace Fxc

/-- The command line of the adapter. -/
def form : CommandForm where
  descriptor := descriptor
  line args _ paths := commandLine args paths.input paths.object paths.listing
  words := ["/nologo", "/T", "/E", "/Od"]
  values := [("", targetProfileName), ("/O", optimizationLevelName)]
  entry _ _ := .after "/E"
  options := .never
  object := .after "/Fo"
  listing := .after "/Fc"

/-- The places of the command line, for a profile and an optimization option. -/
def places (profile level : String) : List Place :=
  [Place.word "/nologo", Place.word "/T", Place.word profile] ++
    ([Place.word "/E", Place.entry, Place.word level] ++ pathPart "/Fo" "/Fc")

theorem optimization_eq (same : SameButFree args other) :
    optimization other = optimization args := by
  rw [optimization, optimization, same.boolean (by decide), same.integerText (by decide)]

theorem hasForm (fits : args.Fits descriptor.parameters) (language : String) :
    form.HasForm language args := by
  obtain ⟨level, isLevel⟩ := gives_optimization fits
  have profile := string_eq_textOf fits (by decide : Declares _ targetProfileName .text)
  obtain ⟨input, object, listing⟩ := mention_pathPart "/Fo" "/Fc"
  obtain ⟨noEntry, noOptions⟩ := not_mem_pathPart
  refine ⟨places (textOf args targetProfileName) level, ⟨?_, ?_, ?_, ?_, ?_⟩, ?_, ?_⟩
  · exact .skip (by simp) (.within ⟨[], _, rfl, by simp, by simp⟩ noEntry)
  · simp [form, places, Mention.Of, noOptions]
  · exact .skip (by simp) (.skip (by simp) input)
  · exact .skip (by simp) (.skip (by simp) object)
  · exact .skip (by simp) (.skip (by simp) listing)
  · have profileWord : form.HasWord args (textOf args targetProfileName) :=
      CommandForm.hasWord_textOf fits (.head _) (by decide) String.empty_append
    have levelWord : form.HasWord args level :=
      CommandForm.hasWord_level fits (by decide) (.tail _ (.head _)) (by decide) isLevel
    refine .word (.own (by decide)) (.word (.own (by decide)) (.word profileWord ?_))
    refine .word (.own (by decide)) (.entry (.word levelWord ?_))
    exact CommandForm.speaks_pathPart rfl rfl
  · intro other otherFits same _ paths
    have entry := string_eq_textOf otherFits (by decide : Declares _ entryPointName .text)
    rw [← same.string (by decide)] at profile
    rw [← optimization_eq same] at isLevel
    change commandLine other paths.input paths.object paths.listing = _
    rw [commandLine, isLevel, profile, entry]
    rfl

end Fxc

namespace Dxc

/-- The command line of the adapter that compiles. -/
def form : CommandForm where
  descriptor := descriptor
  line args _ paths := commandLine args paths.input paths.object paths.listing
  words := ["-T", "-E", "-enable-16bit-types", "-Od", "-spirv"]
  values := [("", targetProfileName), ("-O", optimizationLevelName),
    ("-fspv-target-env=", spirvTargetName)]
  entry _ _ := .after "-E"
  options := .once
  object := .after "-Fo"
  listing := .after "-Fc"

/-- The command line of the adapter that prints the syntax tree. -/
def treeForm : CommandForm where
  descriptor := descriptor
  line args _ paths := treeCommandLine args paths.input
  words := ["-T", "-E", "-enable-16bit-types", "-ast-dump"]
  values := [("", targetProfileName)]
  entry _ _ := .after "-E"
  options := .once
  object := .never
  listing := .never

/-- The form of the options that both command lines begin with. -/
def sharedForm (profile : String) (types : List String) : List Place :=
  [Place.word "-T", Place.word profile, Place.word "-E", Place.entry] ++
    (types.map Place.word ++ [Place.options])

theorem entry_sharedForm (profile : String) (types : List String) :
    (Mention.after "-E").Of .entry (sharedForm profile types) :=
  .within ⟨[.word "-T", .word profile], [], rfl, by simp, by simp⟩ (by simp)

theorem options_sharedForm (profile : String) (types : List String) :
    Mention.once.Of .options (sharedForm profile types) :=
  .skip (by simp) (.skip (by simp) ⟨[], [], rfl, by simp, by simp⟩)

/-- No path stands among the options that both command lines begin with. -/
theorem no_path_sharedForm (profile : String) (types : List String) :
    .input ∉ sharedForm profile types ∧ .object ∉ sharedForm profile types ∧
      .listing ∉ sharedForm profile types := by
  simp [sharedForm]

/-- The shared options are words of a form that has these flags and the profile. -/
theorem speaks_sharedForm {f : CommandForm} {profile : String} {types : List String}
    (own : ["-T", "-E", "-enable-16bit-types"] ⊆ f.words) (isWord : f.HasWord args profile)
    (flags : types ⊆ ["-enable-16bit-types"]) : f.Speaks args (sharedForm profile types) := by
  have word : ∀ text ∈ ["-T", "-E", "-enable-16bit-types"], f.HasWord args text :=
    fun text member => .own (own member)
  obtain ⟨target, entry, wide⟩ : f.HasWord args "-T" ∧ f.HasWord args "-E" ∧
      f.HasWord args "-enable-16bit-types" := ⟨word _ (by simp), word _ (by simp), word _ (by simp)⟩
  have typeWords : ∀ text ∈ types, f.HasWord args text := by
    intro text member
    cases List.mem_singleton.1 (flags member)
    exact wide
  refine .word target (.word isWord (.word entry (.entry ?_)))
  exact (CommandForm.speaks_words typeWords).append (.options .nil)

theorem exists_sharedForm (fits : args.Fits descriptor.parameters) :
    ∃ types ⊆ ["-enable-16bit-types"], ∀ other : BoundArguments,
      other.Fits descriptor.parameters → SameButFree args other → ∀ paths,
        sharedOptions other = .ok (fillForm (fillingOf other paths)
          (sharedForm (textOf args targetProfileName) types)) := by
  obtain ⟨wide, isWide⟩ := fits.boolean (by decide : Declares _ enable16BitTypesName .truth)
  have profile := string_eq_textOf fits (by decide : Declares _ targetProfileName .text)
  refine ⟨if wide then ["-enable-16bit-types"] else [], by cases wide <;> simp, ?_⟩
  intro other otherFits same paths
  have entry := string_eq_textOf otherFits (by decide : Declares _ entryPointName .text)
  have extra := string_eq_textOf otherFits (by decide : Declares _ extraOptionsName .text)
  rw [← same.string (by decide)] at profile
  rw [← same.boolean (by decide)] at isWide
  rw [sharedOptions, profile, entry, isWide, splitExtraOptions, extra]
  simp [sharedForm, Place.fill, fillingOf]
  rfl

theorem optimization_eq (same : SameButFree args other) :
    optimization other = optimization args := by
  rw [optimization, optimization, same.boolean (by decide), same.integerText (by decide)]

theorem spirvOptions_eq (same : SameButFree args other) :
    spirvOptions other = spirvOptions args := by
  rw [spirvOptions, spirvOptions, same.string (by decide), same.string (by decide)]

theorem hasWord_spirvOptions (fits : args.Fits descriptor.parameters) {options : List String}
    (isOptions : spirvOptions args = .ok options) : ∀ text ∈ options, form.HasWord args text := by
  have language := string_eq_textOf fits (by decide : Declares _ outputLanguageName .text)
  have target := string_eq_textOf fits (by decide : Declares _ spirvTargetName .text)
  rw [spirvOptions, language, target] at isOptions
  have targetWord : form.HasWord args ("-fspv-target-env=" ++ textOf args spirvTargetName) :=
    CommandForm.hasWord_textOf fits (.tail _ (.tail _ (.head _))) (by decide) rfl
  change (if textOf args outputLanguageName = Language.spirv then
    Except.ok ["-spirv", "-fspv-target-env=" ++ textOf args spirvTargetName] else .ok []) = _
      at isOptions
  split at isOptions
  case isTrue =>
    cases isOptions
    exact List.forall_mem_cons.2 ⟨.own (by decide), List.forall_mem_singleton.2 targetWord⟩
  case isFalse =>
    cases isOptions
    exact List.forall_mem_nil _

/-- The places of the command line that compiles, behind the shared options. -/
def ownPlaces (words : List String) : List Place :=
  words.map .word ++ pathPart "-Fo" "-Fc"

theorem hasForm (fits : args.Fits descriptor.parameters) (language : String) :
    form.HasForm language args := by
  obtain ⟨types, flags, isShared⟩ := exists_sharedForm fits
  obtain ⟨level, isLevel⟩ := gives_optimization fits
  obtain ⟨spirv, isSpirv⟩ := gives_spirvOptions fits
  obtain ⟨noInput, noObject, noListing⟩ := no_path_sharedForm (textOf args targetProfileName) types
  obtain ⟨input, object, listing⟩ := mention_pathPart "-Fo" "-Fc"
  obtain ⟨noEntry, noOptions⟩ := not_mem_pathPart
  refine ⟨sharedForm (textOf args targetProfileName) types ++ ownPlaces (level :: spirv),
    ⟨?_, ?_, ?_, ?_, ?_⟩, ?_, ?_⟩
  · exact (entry_sharedForm _ types).within (List.not_mem_append (by simp) noEntry)
  · exact (options_sharedForm _ types).within (List.not_mem_append (by simp) noOptions)
  · exact .skip noInput (.skip (by simp) input)
  · exact .skip noObject (.skip (by simp) object)
  · exact .skip noListing (.skip (by simp) listing)
  · have profileWord : form.HasWord args (textOf args targetProfileName) :=
      CommandForm.hasWord_textOf fits (.head _) (by decide) String.empty_append
    have levelWord : form.HasWord args level :=
      CommandForm.hasWord_level fits (by decide) (.tail _ (.head _)) (by decide) isLevel
    have words := List.forall_mem_cons.2 ⟨levelWord, hasWord_spirvOptions fits isSpirv⟩
    refine (speaks_sharedForm (by decide) profileWord flags).append ?_
    exact (CommandForm.speaks_words words).append (CommandForm.speaks_pathPart rfl rfl)
  · intro other otherFits same _ paths
    rw [← optimization_eq same] at isLevel
    rw [← spirvOptions_eq same] at isSpirv
    change commandLine other paths.input paths.object paths.listing = _
    rw [commandLine, isShared other otherFits same paths, isLevel, isSpirv, fillForm_append,
      ownPlaces, fillForm_append, fillForm_words]
    exact congrArg Except.ok (by simp [pathPart, Place.fill, fillingOf])

/-- The places of the command line that prints the syntax tree, behind the shared options. -/
def ownTreePlaces : List Place := [.word "-ast-dump", .input]

theorem hasForm_tree (fits : args.Fits descriptor.parameters) (language : String) :
    treeForm.HasForm language args := by
  obtain ⟨types, flags, isShared⟩ := exists_sharedForm fits
  obtain ⟨noInput, noObject, noListing⟩ := no_path_sharedForm (textOf args targetProfileName) types
  refine ⟨sharedForm (textOf args targetProfileName) types ++ ownTreePlaces,
    ⟨?_, ?_, ?_, ?_, ?_⟩, ?_, ?_⟩
  · exact (entry_sharedForm _ types).within (by decide)
  · exact (options_sharedForm _ types).within (by decide)
  · exact .skip noInput ⟨[.word "-ast-dump"], [], rfl, by simp, by simp⟩
  · exact List.not_mem_append noObject (by decide)
  · exact List.not_mem_append noListing (by decide)
  · have profileWord : treeForm.HasWord args (textOf args targetProfileName) :=
      CommandForm.hasWord_textOf fits (.head _) (by decide) String.empty_append
    refine (speaks_sharedForm (by decide) profileWord flags).append ?_
    exact .word (.own (by decide)) (.input .nil)
  · intro other otherFits same _ paths
    change treeCommandLine other paths.input = _
    rw [treeCommandLine, isShared other otherFits same paths, fillForm_append]
    rfl

end Dxc

namespace Glslang

/-- The command line of the adapter, which has an entry point for HLSL alone. -/
def form : CommandForm where
  descriptor := descriptor
  line args language paths := commandLine args language paths.input paths.object
  words := ["-G", "-V", "--target-env", "opengl", "vulkan1.0", "vulkan1.1", "vulkan1.2", "-S", "-D",
    "-e", "-H"]
  values := [("", shaderStageName)]
  entry language _ := if language = Language.hlsl then .after "-e" else .never
  options := .never
  object := .after "-o"
  listing := .never

theorem hasWord_targetOptions (fits : args.Fits descriptor.parameters) :
    ∀ text ∈ targetOptions (textOf args targetName), form.HasWord args text := by
  have listed : textOf args targetName ∈ ["Vulkan 1.0", "Vulkan 1.1", "Vulkan 1.2", "OpenGL"] :=
    textOf_mem fits (by decide)
  have own : targetOptions (textOf args targetName) ⊆ form.words := by
    simp only [List.mem_cons, List.not_mem_nil, or_false] at listed
    rcases listed with same | same | same | same
    all_goals rw [same]; decide
  exact fun text member => .own (own member)

/-- The places of the command line, for some words and the part for an entry point. -/
def places (words : List String) (hlsl : List Place) : List Place :=
  words.map Place.word ++ (hlsl ++ [Place.word "-H", Place.word "-o", Place.object, Place.input])

theorem hasForm (fits : args.Fits descriptor.parameters) (language : String) :
    form.HasForm language args := by
  have target := string_eq_textOf fits (by decide : Declares _ targetName .text)
  have stage := string_eq_textOf fits (by decide : Declares _ shaderStageName .text)
  let words := targetOptions (textOf args targetName) ++ ["-S", textOf args shaderStageName]
  let hlsl := entryPart (language = Language.hlsl) ["-D"] "-e"
  obtain ⟨noOptions, noInput, noObject, noListing⟩ :
    .options ∉ hlsl ∧ .input ∉ hlsl ∧ .object ∉ hlsl ∧ .listing ∉ hlsl := not_mem_entryPart
  refine ⟨places words hlsl, ⟨?_, ?_, ?_, ?_, ?_⟩, ?_, ?_⟩
  · exact .skip (by simp) ((mention_entryPart _ ["-D"] "-e").within (by simp))
  · simp [form, places, Mention.Of, noOptions]
  · exact .skip (by simp) (.skip noInput ⟨[.word "-H", .word "-o", .object], [], rfl, by simp,
      by simp⟩)
  · exact .skip (by simp) (.skip noObject ⟨[.word "-H"], _, rfl, by simp, by simp⟩)
  · simp [form, places, Mention.Of, noListing]
  · have stageWord : form.HasWord args (textOf args shaderStageName) :=
      CommandForm.hasWord_textOf fits (.head _) (by decide) String.empty_append
    have isWord : ∀ text ∈ words, form.HasWord args text :=
      List.forall_mem_append.2 ⟨hasWord_targetOptions fits, List.forall_mem_cons.2
        ⟨.own (by decide), List.forall_mem_singleton.2 stageWord⟩⟩
    refine (CommandForm.speaks_words isWord).append ?_
    refine (CommandForm.speaks_entryPart (by decide)).append ?_
    exact .word (.own (by decide)) (.flaggedObject rfl (.input .nil))
  · intro other otherFits same _ paths
    have entry := string_eq_textOf otherFits (by decide : Declares _ entryPointName .text)
    rw [← same.string (by decide)] at target stage
    have options : hlslOptions other language = .ok (fillForm (fillingOf other paths) hlsl) := by
      rw [hlslOptions, entry, fillForm_entryPart]
      split
      · rfl
      · rfl
    change commandLine other language paths.input paths.object = _
    rw [commandLine, target, stage, options, places, fillForm_append, fillForm_append,
      fillForm_words]
    exact congrArg Except.ok (by simp [words, Place.fill, fillingOf])

end Glslang

namespace SpirvCross

/-- The command line of the adapter, which has no place for an empty entry point. -/
def form : CommandForm where
  descriptor := descriptor
  line args _ paths := commandLine args paths.input paths.object
  words := ["--version", "--es", "--hlsl", "--shader-model", "--msl", "--entry"]
  values := [("", glslVersionName), ("", hlslShaderModelName)]
  entry _ entry := if entry ≠ "" then .after "--entry" else .never
  options := .never
  object := .after "--output"
  listing := .never

theorem languageOptions_eq (same : SameButFree args other) (language : String) :
    languageOptions other language = languageOptions args language := by
  rw [languageOptions, languageOptions, same.integerText (by decide), same.integerText (by decide),
    same.boolean (by decide)]

theorem hasWord_languageOptions (fits : args.Fits descriptor.parameters) {language : String}
    {options : List String} (isOptions : languageOptions args language = .ok options) :
    ∀ text ∈ options, form.HasWord args text := by
  obtain ⟨model, isModel⟩ := gives_integerText fits (by decide : Declares _ hlslShaderModelName _)
  obtain ⟨version, isVersion⟩ := gives_integerText fits (by decide : Declares _ glslVersionName _)
  obtain ⟨es, isEs⟩ := fits.boolean (by decide : Declares _ glslEsName .truth)
  have modelWord : form.HasWord args model :=
    CommandForm.hasWord_integerText fits (.tail _ (.head _)) (by decide) isModel String.empty_append
  have versionWord : form.HasWord args version :=
    CommandForm.hasWord_integerText fits (.head _) (by decide) isVersion String.empty_append
  rw [languageOptions, isModel, isVersion, isEs] at isOptions
  split at isOptions
  case isTrue =>
    cases isOptions
    exact List.forall_mem_cons.2 ⟨.own (by decide), List.forall_mem_cons.2
      ⟨.own (by decide), List.forall_mem_singleton.2 modelWord⟩⟩
  case isFalse =>
    split at isOptions
    case isTrue =>
      cases isOptions
      exact List.forall_mem_singleton.2 (.own (by decide))
    case isFalse =>
      cases isOptions
      refine List.forall_mem_cons.2 ⟨.own (by decide), List.forall_mem_cons.2 ⟨versionWord, ?_⟩⟩
      cases es with
      | true => exact List.forall_mem_singleton.2 (.own (by decide))
      | false => exact List.forall_mem_nil _

/-- The places of the command line, for some words and the part for an entry point. -/
def places (words : List String) (entry : List Place) : List Place :=
  [Place.input, Place.word "--output", Place.object] ++ (words.map Place.word ++ entry)

theorem hasForm (fits : args.Fits descriptor.parameters) (language : String) :
    form.HasForm language args := by
  have output := string_eq_textOf fits (by decide : Declares _ outputLanguageName .text)
  obtain ⟨words, isWords⟩ := gives_languageOptions fits (textOf args outputLanguageName)
  let entry := entryPart (textOf args entryPointName ≠ "") [] "--entry"
  obtain ⟨noOptions, noInput, noObject, noListing⟩ :
    .options ∉ entry ∧ .input ∉ entry ∧ .object ∉ entry ∧ .listing ∉ entry := not_mem_entryPart
  refine ⟨places words entry, ⟨?_, ?_, ?_, ?_, ?_⟩, ?_, ?_⟩
  · exact .skip (by simp) (.skip (by simp) (mention_entryPart _ [] "--entry"))
  · simp [form, places, Mention.Of, noOptions]
  · exact .within ⟨[], _, rfl, by simp, by simp⟩ (by simp [noInput])
  · exact .within ⟨[.input], [], rfl, by simp, by simp⟩ (by simp [noObject])
  · simp [form, places, Mention.Of, noListing]
  · refine .input (.flaggedObject rfl ?_)
    exact (CommandForm.speaks_words (hasWord_languageOptions fits isWords)).append
      (CommandForm.speaks_entryPart (by decide))
  · intro other otherFits same alike paths
    have isEntry := string_eq_textOf otherFits (by decide : Declares _ entryPointName .text)
    rw [← same.string (by decide)] at output
    rw [← languageOptions_eq same] at isWords
    have options : entryOptions (textOf other entryPointName) =
        fillForm (fillingOf other paths) entry := by
      rw [entryOptions, fillForm_entryPart]
      by_cases isEmpty : textOf other entryPointName = ""
      · simp [isEmpty, alike.1 isEmpty]
      · simp [isEmpty, mt alike.2 isEmpty, fillingOf]
    have line : commandLine other paths.input paths.object = .ok
        ([paths.input.text, "--output", paths.object.text] ++ words ++
          entryOptions (textOf other entryPointName)) := by
      rw [commandLine, output]
      change languageOptions other _ >>= _ = _
      rw [isWords, isEntry]
      rfl
    refine line.trans (congrArg Except.ok ?_)
    rw [options, List.append_assoc, places, fillForm_append, fillForm_append, fillForm_words]
    rfl

end SpirvCross

namespace Hlslcc

/-- The command line of the adapter, which has no place for an entry point. -/
def form : CommandForm where
  descriptor := descriptor
  line args _ paths := commandLine args paths.input paths.object
  words := ["0", "14"]
  values := []
  entry _ _ := .never
  options := .never
  object := .once
  listing := .never

theorem hasForm (fits : args.Fits descriptor.parameters) (language : String) :
    form.HasForm language args := by
  have output := string_eq_textOf fits (by decide : Declares _ outputLanguageName .text)
  refine ⟨[.input, .word (languageNumber (textOf args outputLanguageName)), .object],
    ⟨?_, ?_, ?_, ?_, ?_⟩, ?_, ?_⟩
  · simp [form, Mention.Of]
  · simp [form, Mention.Of]
  · exact ⟨[], _, rfl, by simp, by simp⟩
  · exact ⟨[.input, .word _], [], rfl, by simp, by simp⟩
  · simp [form, Mention.Of]
  · refine .input (.word (.own ?_) (.object rfl .nil))
    rw [languageNumber]
    split
    · decide
    · decide
  · intro other _ same _ paths
    rw [← same.string (by decide)] at output
    change commandLine other paths.input paths.object = _
    rw [commandLine, output]
    rfl

end Hlslcc

namespace Mali

/-- The command line of the adapter, which has an entry point for SPIR-V alone. -/
def form : CommandForm where
  descriptor := descriptor
  line args language paths := commandLine args language paths.input
  words := ["--core", "--vertex", "--tessellation_control", "--tessellation_evaluation",
    "--geometry", "--compute", "--fragment", "--spirv", "--name"]
  values := [("", coreName)]
  entry language _ := if language = Language.spirv then .after "--name" else .never
  options := .never
  object := .never
  listing := .never

theorem stageOption_mem (stage : String) : stageOption stage ∈ form.words := by
  rw [stageOption]
  split_ifs
  all_goals decide

/-- The places of the command line, for some words and the part for an entry point. -/
def places (words : List String) (spirv : List Place) : List Place :=
  words.map Place.word ++ (spirv ++ [Place.input])

theorem hasForm (fits : args.Fits descriptor.parameters) (language : String) :
    form.HasForm language args := by
  have core := string_eq_textOf fits (by decide : Declares _ coreName .text)
  have stage := string_eq_textOf fits (by decide : Declares _ shaderStageName .text)
  let words := ["--core", textOf args coreName, stageOption (textOf args shaderStageName)]
  let spirv := entryPart (language = Language.spirv) ["--spirv"] "--name"
  obtain ⟨noOptions, noInput, noObject, noListing⟩ :
    .options ∉ spirv ∧ .input ∉ spirv ∧ .object ∉ spirv ∧ .listing ∉ spirv := not_mem_entryPart
  refine ⟨places words spirv, ⟨?_, ?_, ?_, ?_, ?_⟩, ?_, ?_⟩
  · exact .skip (by simp) ((mention_entryPart _ ["--spirv"] "--name").within (by simp))
  · simp [form, places, Mention.Of, noOptions]
  · exact .skip (by simp) (.skip noInput ⟨[], [], rfl, by simp, by simp⟩)
  · simp [form, places, Mention.Of, noObject]
  · simp [form, places, Mention.Of, noListing]
  · have coreWord : form.HasWord args (textOf args coreName) :=
      CommandForm.hasWord_textOf fits (.head _) (by decide) String.empty_append
    have isWord : ∀ text ∈ words, form.HasWord args text :=
      List.forall_mem_cons.2 ⟨.own (by decide), List.forall_mem_cons.2 ⟨coreWord,
        List.forall_mem_singleton.2 (.own (stageOption_mem _))⟩⟩
    refine (CommandForm.speaks_words isWord).append ?_
    exact (CommandForm.speaks_entryPart (by decide)).append (.input .nil)
  · intro other otherFits same _ paths
    have entry := string_eq_textOf otherFits (by decide : Declares _ entryPointName .text)
    rw [← same.string (by decide)] at core stage
    have options : spirvOptions other language = .ok (fillForm (fillingOf other paths) spirv) := by
      rw [spirvOptions, entry, fillForm_entryPart]
      split
      · rfl
      · rfl
    change commandLine other language paths.input = _
    rw [commandLine, core, stage, options, places, fillForm_append, fillForm_append,
      fillForm_words]
    exact congrArg Except.ok (by simp [words, Place.fill, fillingOf])

end Mali

/-- The command lines of the six adapters, one of which has two. -/
def commandForms : List CommandForm :=
  [Fxc.form, Dxc.form, Dxc.treeForm, Glslang.form, SpirvCross.form, Hlslcc.form, Mali.form]

/-- Every command line has a form for arguments that fit. -/
theorem hasForm_of_mem_commandForms {f : CommandForm} (member : f ∈ commandForms)
    (fits : args.Fits f.descriptor.parameters) (language : String) : f.HasForm language args := by
  simp only [commandForms, List.mem_cons, List.not_mem_nil, or_false] at member
  rcases member with rfl | rfl | rfl | rfl | rfl | rfl | rfl
  · exact Fxc.hasForm fits language
  · exact Dxc.hasForm fits language
  · exact Dxc.hasForm_tree fits language
  · exact Glslang.hasForm fits language
  · exact SpirvCross.hasForm fits language
  · exact Hlslcc.hasForm fits language
  · exact Mali.hasForm fits language

/-- The parameters behind a command line have distinct names, also with versions. -/
theorem nodup_schema {f : CommandForm} (member : f ∈ commandForms) (toolchain : Toolchain) :
    ((f.schema toolchain).map Parameter.name).Nodup := by
  have isAdapter : ∀ f ∈ commandForms, f.descriptor ∈ descriptors := by
    simp [commandForms, descriptors, Fxc.form, Dxc.form, Dxc.treeForm, Glslang.form,
      SpirvCross.form, Hlslcc.form, Mali.form]
  obtain ⟨wellFormed, fresh⟩ := wellFormed_descriptors f.descriptor (isAdapter f member)
  exact (wellFormed.withVersions fresh toolchain).distinct

/-- **The command lines of the built-in tools have forms,** with every toolchain, for input in any
language and all arguments that were bound. In the form every place for a caller's text or a path
stands where it is said to; the line is the form filled in, and so it is for all arguments that
were bound with other free texts, and with all paths. If the entry point alone is another, the line
is the same but for its place. The further options are the maximal runs of their text. -/
theorem command_lines_have_forms (toolchain : Toolchain) {f : CommandForm}
    (member : f ∈ commandForms) (language : String) {raw : Table String} {args : BoundArguments}
    (bound : bind (f.schema toolchain) raw = .ok args) :
    (∀ p ∈ f.schema toolchain, p.kind = .string → textOf args p.name = p.rawValue raw) ∧
    Text.Runs Text.isContent (textOf args extraOptionsName).toList
      ((Text.words (textOf args extraOptionsName)).map String.toList) ∧
    ∃ form, f.Mentions language (textOf args entryPointName) form ∧
      (∀ paths, f.line args language paths = .ok (fillForm (fillingOf args paths) form)) ∧
      ∀ otherRaw other, bind (f.schema toolchain) otherRaw = .ok other →
        (∀ name, ¬ IsFree name → otherRaw.get? name = raw.get? name) →
        (textOf other entryPointName = "" ↔ textOf args entryPointName = "") →
          (∀ paths, f.line other language paths = .ok (fillForm (fillingOf other paths) form)) ∧
          (otherRaw.get? extraOptionsName = raw.get? extraOptionsName → ∀ paths, ∃ line otherLine,
            f.line args language paths = .ok line ∧ f.line other language paths = .ok otherLine ∧
              (f.entry language (textOf args entryPointName)).Replaces (textOf args entryPointName)
                (textOf other entryPointName) line otherLine) := by
  have distinct := nodup_schema member toolchain
  have fits : args.Fits (f.schema toolchain) := BoundArguments.fits_of_bind bound distinct
  obtain ⟨form, mentions, _, makes⟩ := hasForm_of_mem_commandForms member fits.left language
  have makesOwn : ∀ paths, f.line args language paths = .ok (fillForm (fillingOf args paths) form) :=
    makes args fits.left (fun _ _ => rfl) Iff.rfl
  refine ⟨fun p => textOf_of_bind distinct bound, Text.runs_words _, form, mentions, makesOwn, ?_⟩
  intro otherRaw other otherBound same alike
  have otherFits : other.Fits (f.schema toolchain) :=
    BoundArguments.fits_of_bind otherBound distinct
  have makesOther := makes other otherFits.left
    (fun name notFree => get?_eq_of_bind distinct bound otherBound (same name notFree)) alike
  refine ⟨makesOther, fun sameOptions paths => ⟨_, _, makesOwn paths, makesOther paths, ?_⟩⟩
  have options : textOf other extraOptionsName = textOf args extraOptionsName := by
    rw [textOf, textOf, BoundArguments.string, BoundArguments.string, BoundArguments.typed,
      get?_eq_of_bind distinct bound otherBound sameOptions]
    rfl
  have filling : fillingOf other paths =
      { fillingOf args paths with entry := textOf other entryPointName } := by
    rw [fillingOf, options]
    rfl
  rw [filling]
  exact mentions.entry.replaces _

/-- Arguments of `dxc` with an entry point and further options. -/
def awkwardArguments (entry options : String) : BoundArguments :=
  ⟨[("EntryPoint", .string entry), ("TargetProfile", .string "ps_6_0"),
    ("DisableOptimizations", .bool false), ("OptimizationLevel", .int 3),
    ("Enable16BitTypes", .bool false), ("SpirvTarget", .string "vulkan1.0"),
    ("ExtraOptions", .string options), ("OutputLanguage", .string "DXIL"),
    ("Version", .string "trunk")]⟩

/-- An entry point that reads like options, and further options with blanks around them. -/
theorem command_lines_have_forms_awkward :
    let toolchain := Toolchain.ofSection ⟨some ⟨"/opt/bin"⟩, 30, .empty, .empty⟩
    let entry := "-E \"a\n b\""
    let options := " -Zpr\t-HV  2021\n"
    let raw := (Table.empty.insert "EntryPoint" entry).insert "ExtraOptions" options
    let paths : LinePaths := ⟨⟨"in.hlsl"⟩, ⟨"o.bin"⟩, ⟨"-o.txt"⟩⟩
    Dxc.form ∈ commandForms ∧
      bind (Dxc.form.schema toolchain) raw = .ok (awkwardArguments entry options) ∧
      bind (Dxc.form.schema toolchain) (raw.insert "EntryPoint" "main") =
        .ok (awkwardArguments "main" options) ∧
      ∃ form line otherLine, Dxc.form.Mentions Language.hlsl entry form ∧
        Dxc.form.line (awkwardArguments entry options) Language.hlsl paths = .ok line ∧
        line = ["-T", "ps_6_0", "-E", entry, "-Zpr", "-HV", "2021", "-O3", "-Fo", "o.bin", "-Fc",
          "-o.txt", "in.hlsl"] ∧
        Dxc.form.line (awkwardArguments "main" options) Language.hlsl paths = .ok otherLine ∧
        (Mention.after "-E").Replaces entry "main" line otherLine := by
  intro toolchain entry options raw paths
  have member : Dxc.form ∈ commandForms := by simp [commandForms]
  have bound : bind (Dxc.form.schema toolchain) raw = .ok (awkwardArguments entry options) := by
    decide +kernel
  have otherBound : bind (Dxc.form.schema toolchain) (raw.insert "EntryPoint" "main") =
      .ok (awkwardArguments "main" options) := by
    decide +kernel
  obtain ⟨_, _, form, mentions, _, others⟩ :=
    command_lines_have_forms toolchain member Language.hlsl bound
  have same : ∀ name, name ≠ entryPointName →
      (raw.insert "EntryPoint" "main").get? name = raw.get? name :=
    fun name different => raw.get?_insert_of_ne "main" (Ne.symm different)
  have isEntry : textOf (awkwardArguments entry options) entryPointName = entry := by
    decide +kernel
  have isOtherEntry : textOf (awkwardArguments "main" options) entryPointName = "main" := by
    decide +kernel
  rw [isEntry] at mentions others
  obtain ⟨_, replaced⟩ := others _ _ otherBound (fun name notFree => same name (notFree ∘ .inl))
    (by rw [isOtherEntry]; decide)
  obtain ⟨line, otherLine, isLine, isOther, replaces⟩ := replaced (same _ (by decide)) paths
  rw [isOtherEntry] at replaces
  refine ⟨member, bound, otherBound, form, line, otherLine, mentions, isLine, ?_, isOther, replaces⟩
  refine Except.ok.inj (isLine.symm.trans ?_)
  decide +kernel

end ShaderChain.Adapter
