import Mathlib.Data.List.Basic
import ShaderChain.Config.Discovery
import ShaderChain.Machine.Launch
import ShaderChain.Proofs.Host
import ShaderChain.Proofs.Text.Utf8

/-!
# Layers of configurations

Of several configurations one on top of the other each section is that of the
last one that has it (`Config.IsSection.foldl_merge`). A layer that is not there
and one that cannot be used add nothing to this; the latter adds one warning,
which stands before what deserves attention in the values.

What is found at the path of a layer is one of five things (`Finds`), and what
is found at the paths one after the other (`Surveys`) determines the
configuration in effect, its sources and the warnings (`Loads`), whatever the
host does otherwise.
-/

set_option autoImplicit false

namespace ShaderChain

/-! ## Merging -/

namespace Config

theorem merge_assoc (a b c : Config) : (a.merge b).merge c = a.merge (b.merge c) := by
  simp only [merge, Option.or_assoc]

@[simp]
theorem empty_merge (c : Config) : empty.merge c = c := by
  simp only [merge, empty, Option.or_none]

@[simp]
theorem merge_empty (c : Config) : c.merge empty = c := rfl

/-- Configurations with the same sections are equal. -/
theorem eq_of_sections {c other : Config} (tools : c.tools = other.tools)
    (pipelines : c.pipelines = other.pipelines) (logging : c.logging = other.logging) :
    c = other := by
  cases c
  cases other
  cases tools
  cases pipelines
  cases logging
  rfl

/-- Whether a part of configurations is a section: the empty one has none, and of two
configurations the upper one gives it if it can. -/
structure IsSection {α : Type} (part : Config → Option α) : Prop where
  absent : part empty = none
  upper : ∀ lower upper, part (lower.merge upper) = (part upper).or (part lower)

theorem isSection_tools : IsSection Config.tools := ⟨rfl, fun _ _ => rfl⟩

theorem isSection_pipelines : IsSection Config.pipelines := ⟨rfl, fun _ _ => rfl⟩

theorem isSection_logging : IsSection Config.logging := ⟨rfl, fun _ _ => rfl⟩

/-- A section of configurations on top of another is that of the last one that has it. -/
theorem IsSection.foldl_merge {α : Type} {part : Config → Option α} (isSection : IsSection part)
    (configs : List Config) (lowest : Config) :
    part (configs.foldl merge lowest) = (configs.reverse.findSome? part).or (part lowest) := by
  induction configs generalizing lowest with
  | nil => rfl
  | cons config rest ih =>
    rw [List.foldl_cons, ih, isSection.upper, List.reverse_cons, List.findSome?_append,
      List.findSome?_singleton, Option.or_assoc]

/-- **A section of merged configurations** is that of the last one that has it. -/
theorem IsSection.merged {α : Type} {part : Config → Option α} (isSection : IsSection part)
    (configs : List Config) :
    part (configs.foldl merge empty) = configs.reverse.findSome? part := by
  rw [isSection.foldl_merge, isSection.absent, Option.or_none]

end Config

/-! ## Layers -/

/-- What was found at the path of a layer: nothing, what is wrong with it, or a configuration. -/
structure Layer where
  path : Path
  found : Option (Except ConfigError Config)

namespace Layer

/-- The configuration that the layer adds. -/
def config? (layer : Layer) : Option Config :=
  match layer.found with
  | some (.ok config) => some config
  | _ => none

/-- The warning that the layer adds. -/
def warning? (layer : Layer) : Option ConfigWarning :=
  match layer.found with
  | some (.error error) => some (.unusable layer.path error)
  | _ => none

/-- The source of the layer. -/
def source (layer : Layer) : ConfigSource := ⟨layer.path, layer.config?.isSome⟩

end Layer

/-- Whether a warning says that a layer could not be loaded. -/
def ConfigWarning.SaysFailed (warning : ConfigWarning) : Prop :=
  "Failed to load ".toList <+: warning.message.toList

/-- What says so is about a layer that could not be used. -/
theorem ConfigWarning.saysFailed_iff {warning : ConfigWarning} :
    warning.SaysFailed ↔ ∃ path error, warning = .unusable path error := by
  constructor
  · rintro ⟨rest, text⟩
    have begins : warning.message.toList.head? = some 'F' := by
      rw [← text, List.head?_append]
      rfl
    cases warning with
    | unusable path error => exact ⟨path, error, rfl⟩
    | noTime => exact absurd begins (by decide)
    | noBinariesDir dir =>
      have text : (noBinariesDir dir).message =
          "[tools] binaries_dir '" ++ (dir.text ++ "' does not exist") := String.append_assoc ..
      have bracket : "[tools] binaries_dir '".toList.head? = some '[' := by decide
      rw [text, String.toList_append, List.head?_append, bracket, Option.some_or] at begins
      exact absurd begins (by decide)
    | versionsIgnored => exact absurd begins (by decide)
  · rintro ⟨path, error, rfl⟩
    have text : (unusable path error).message =
        "Failed to load " ++ (path.text ++ (": " ++ error.message)) :=
      (String.append_assoc ..).trans (String.append_assoc ..)
    rw [SaysFailed, text, String.toList_append]
    exact List.prefix_append _ _

namespace LoadedConfig

theorem addLayer_eq (l : LoadedConfig) (layer : Layer) :
    l.addLayer layer.path layer.found =
      ⟨layer.config?.toList.foldl Config.merge l.config, l.sources ++ [layer.source],
        l.warnings ++ layer.warning?.toList⟩ := by
  obtain ⟨path, found⟩ := layer
  match found with
  | none => simp [addLayer, Layer.source, Layer.config?, Layer.warning?]
  | some (.error error) => simp [addLayer, Layer.source, Layer.config?, Layer.warning?]
  | some (.ok config) => simp [addLayer, Layer.source, Layer.config?, Layer.warning?]

/-- Layers add their configurations, sources and warnings, each in order. -/
theorem foldl_addLayer (layers : List Layer) (l : LoadedConfig) :
    layers.foldl (fun l layer => l.addLayer layer.path layer.found) l =
      ⟨(layers.filterMap Layer.config?).foldl Config.merge l.config,
        l.sources ++ layers.map Layer.source,
        l.warnings ++ layers.filterMap Layer.warning?⟩ := by
  induction layers generalizing l with
  | nil => simp
  | cons layer rest ih =>
    rw [List.foldl_cons, ih, addLayer_eq]
    cases config : layer.config? with
    | none =>
      cases warning : layer.warning? with
      | none => simp [config, warning]
      | some unusable => simp [config, warning]
    | some given =>
      cases warning : layer.warning? with
      | none => simp [config, warning]
      | some unusable => simp [config, warning]

end LoadedConfig

/-- What the layers make of a configuration that is loaded, with what deserves attention in its
values: each section is that of the last layer that has it; a layer is a source, loaded if it was
used; and one that could not be used has one warning, all of them in front of those about the
values. -/
structure Loads (layers : List Layer) (values : List ConfigWarning) (l : LoadedConfig) : Prop where
  tools : l.config.tools = layers.reverse.findSome? fun layer => layer.config?.bind (·.tools)
  pipelines : l.config.pipelines =
    layers.reverse.findSome? fun layer => layer.config?.bind (·.pipelines)
  logging : l.config.logging = layers.reverse.findSome? fun layer => layer.config?.bind (·.logging)
  sources : l.sources = layers.map fun layer => ⟨layer.path, layer.config?.isSome⟩
  loadedFrom : l.loadedFrom = (layers.filter (·.config?.isSome)).map (·.path)
  warnings : l.warnings = layers.filterMap Layer.warning? ++ values
  failures : ∀ warning ∈ layers.filterMap Layer.warning?, warning.SaysFailed
  values : ∀ warning ∈ values, ¬ warning.SaysFailed

namespace Loads

/-- A section of the configurations of some layers is that of the last one that has it. -/
theorem findSome? {α : Type} {part : Config → Option α} (isSection : Config.IsSection part)
    (layers : List Layer) :
    part ((layers.filterMap Layer.config?).foldl Config.merge .empty) =
      layers.reverse.findSome? fun layer => layer.config?.bind part := by
  rw [isSection.merged, ← List.filterMap_reverse]
  induction layers.reverse with
  | nil => rfl
  | cons layer rest ih =>
    rw [List.findSome?_cons, ← ih]
    cases config : layer.config? with
    | none =>
      rw [List.filterMap_cons_none config]
      rfl
    | some given =>
      rw [List.filterMap_cons_some config, List.findSome?_cons]
      rfl

/-- What a layer adds as a warning says that it could not be loaded. -/
theorem saysFailed {layers : List Layer} :
    ∀ warning ∈ layers.filterMap Layer.warning?, warning.SaysFailed := by
  intro warning member
  obtain ⟨⟨path, found⟩, _, adds⟩ := List.mem_filterMap.1 member
  match found with
  | none => cases adds
  | some (.ok config) => cases adds
  | some (.error error) =>
    cases adds
    exact ConfigWarning.saysFailed_iff.2 ⟨path, error, rfl⟩

/-- Layers one on top of the other are loaded as they make up a configuration. -/
theorem of_layers (layers : List Layer) {values : List ConfigWarning}
    (others : ∀ warning ∈ values, ¬ warning.SaysFailed) :
    let l := layers.foldl (fun l layer => l.addLayer layer.path layer.found) LoadedConfig.empty
    Loads layers values { l with warnings := l.warnings ++ values } := by
  rw [LoadedConfig.foldl_addLayer]
  refine ⟨findSome? Config.isSection_tools layers, findSome? Config.isSection_pipelines layers,
    findSome? Config.isSection_logging layers, rfl, ?_, rfl, saysFailed, others⟩
  rw [LoadedConfig.loadedFrom]
  simp only [LoadedConfig.empty, List.nil_append, List.filter_map, List.map_map]
  rfl

/-- **A layer that cannot be used is as good as none**: what is loaded differs only in one warning
about it. -/
theorem of_broken {before after : List Layer} {path : Path} {error : ConfigError}
    {values otherValues : List ConfigWarning} {l other : LoadedConfig}
    (loads : Loads (before ++ ⟨path, some (.error error)⟩ :: after) values l)
    (otherLoads : Loads (before ++ ⟨path, none⟩ :: after) otherValues other) :
    l.config = other.config ∧ l.sources = other.sources ∧ l.loadedFrom = other.loadedFrom ∧
      ∃ earlier later, l.warnings = earlier ++ .unusable path error :: (later ++ values) ∧
        other.warnings = earlier ++ (later ++ otherValues) := by
  have sameSection {α : Type} (part : Config → Option α) :
      ((before ++ ⟨path, some (.error error)⟩ :: after).reverse.findSome? fun layer =>
          layer.config?.bind part) =
        (before ++ ⟨path, none⟩ :: after).reverse.findSome? fun layer =>
          layer.config?.bind part := by
    simp [Layer.config?]
  refine ⟨Config.eq_of_sections ?_ ?_ ?_, ?_, ?_, before.filterMap Layer.warning?,
    after.filterMap Layer.warning?, ?_, ?_⟩
  · rw [loads.tools, otherLoads.tools, sameSection]
  · rw [loads.pipelines, otherLoads.pipelines, sameSection]
  · rw [loads.logging, otherLoads.logging, sameSection]
  · rw [loads.sources, otherLoads.sources]
    simp [Layer.config?]
  · rw [loads.loadedFrom, otherLoads.loadedFrom]
    simp [Layer.config?]
  · rw [loads.warnings, List.filterMap_append]
    simp [Layer.warning?]
  · have silent : Layer.warning? ⟨path, none⟩ = none := rfl
    rw [otherLoads.warnings, List.filterMap_append, List.filterMap_cons_none silent,
      List.append_assoc]

end Loads

/-! ## What is found -/

open Host (run_readText textOf)

variable {σ : Type}

/-- What is found at the path of a layer: nothing if there is no file, and else a file that cannot
be read, one that is no text, one whose text is no configuration, or one that holds a
configuration. -/
inductive Finds (host : Host (StateM σ)) (path : Path) :
    σ → Option (Except ConfigError Config) → σ → Prop where
  | absent {s t : σ} (noFile : (host.isFile path).run s = (false, t)) : Finds host path s none t
  | unreadable {s t u : σ} {cause : IoError} (isFile : (host.isFile path).run s = (true, t))
      (content : (host.read path).run t = (.error cause, u)) :
      Finds host path s (some (.error (.unreadable path cause))) u
  | noText {s t u : σ} {bytes : Bytes} (isFile : (host.isFile path).run s = (true, t))
      (content : (host.read path).run t = (.ok bytes, u)) (undecoded : Text.decode? bytes = none) :
      Finds host path s (some (.error (.unreadable path .invalidText))) u
  | malformed {s t u : σ} {bytes : Bytes} {text : String}
      (isFile : (host.isFile path).run s = (true, t))
      (content : (host.read path).run t = (.ok bytes, u)) (decoded : Text.decode? bytes = some text)
      (unread : Config.read? text = none) : Finds host path s (some (.error .parse)) u
  | wellFormed {s t u : σ} {bytes : Bytes} {text : String} {config : Config}
      (isFile : (host.isFile path).run s = (true, t))
      (content : (host.read path).run t = (.ok bytes, u)) (decoded : Text.decode? bytes = some text)
      (reads : Config.read? text = some config) : Finds host path s (some (.ok config)) u

/-- What is found at several paths, one after the other. -/
inductive Surveys (host : Host (StateM σ)) : List Path → σ → List Layer → σ → Prop where
  | done {s : σ} : Surveys host [] s [] s
  | next {path : Path} {rest : List Path} {s t u : σ} {found : Option (Except ConfigError Config)}
      {layers : List Layer} (finds : Finds host path s found t)
      (later : Surveys host rest t layers u) :
      Surveys host (path :: rest) s (⟨path, found⟩ :: layers) u

/-- Where the user's file is if no directory is given: in the one that a variable names, or, if that
is unset or empty, in a directory of its own in the user's directory for configurations. A host need
not have such a directory. -/
inductive UserPlace (host : Host (StateM σ)) (s : σ) : Option Path → σ → Prop where
  | named {dir : String} {t : σ}
      (asked : (host.environment? "SHADERPIPE_CONFIG_DIR").run s = (some dir, t))
      (notEmpty : dir ≠ "") : UserPlace host s (some ((Path.mk dir).child "config.toml")) t
  | inHome {answer : Option String} {home : Path} {t u : σ}
      (asked : (host.environment? "SHADERPIPE_CONFIG_DIR").run s = (answer, t))
      (unnamed : answer = none ∨ answer = some "")
      (hasHome : host.configHome.run t = (some home, u)) :
      UserPlace host s (some ((home.child "shaderpipe").child "config.toml")) u
  | nowhere {answer : Option String} {t u : σ}
      (asked : (host.environment? "SHADERPIPE_CONFIG_DIR").run s = (answer, t))
      (unnamed : answer = none ∨ answer = some "") (noHome : host.configHome.run t = (none, u)) :
      UserPlace host s none u

/-- Where the layers are: the user's file, in the directory that is given or else where the host
has it, if there is a directory for it; and the project's file, in the directory that is given or
else in the working directory. -/
structure Locates (host : Host (StateM σ)) (projectDir configDir : Option Path) (s : σ)
    (user : Option Path) (project : Path) (t : σ) : Prop where
  user : match configDir with
    | some dir => user = some (dir.child userFile) ∧ t = s
    | none => UserPlace host s user t
  project : project = (projectDir.map (·.child projectFile)).getD ⟨projectFile⟩

variable {host : Host (StateM σ)} {path : Path} {s t : σ}

/-- The configuration of a file is read off its text. -/
theorem Host.run_readConfig_eq {content : Except IoError Bytes}
    (reads : (host.read path).run s = (content, t)) :
    (host.readConfig path).run s =
      (match textOf content with
        | .error cause => .error (.unreadable path cause)
        | .ok text =>
          match Config.read? text with
          | some config => .ok config
          | none => .error .parse, t) := by
  rw [Host.readConfig, run_bind_of (run_readText reads)]
  cases textOf content with
  | error cause => rfl
  | ok text =>
    dsimp only
    cases Config.read? text with
    | none => rfl
    | some config => rfl

/-- A file is loaded as the layer that is read from it. -/
theorem Host.run_loadLayer_of_isFile {u : σ} {answer : Except ConfigError Config}
    (isFile : (host.isFile path).run s = (true, t))
    (reads : (host.readConfig path).run t = (answer, u)) (l : LoadedConfig) :
    (host.loadLayer l path).run s = (l.addLayer path (some answer), u) := by
  rw [Host.loadLayer, run_bind_of isFile]
  change (host.readConfig path >>= fun answer => pure (l.addLayer path (some answer))).run t = _
  rw [run_bind_of reads]
  rfl

/-- Loading a layer adds what is found. -/
theorem Finds.run_loadLayer {found : Option (Except ConfigError Config)}
    (finds : Finds host path s found t) (l : LoadedConfig) :
    (host.loadLayer l path).run s = (l.addLayer path found, t) := by
  cases finds with
  | absent noFile =>
    rw [Host.loadLayer, run_bind_of noFile]
    rfl
  | unreadable isFile content =>
    exact Host.run_loadLayer_of_isFile isFile (Host.run_readConfig_eq content) l
  | noText isFile content undecoded =>
    have reads := Host.run_readConfig_eq content
    rw [textOf, undecoded] at reads
    exact Host.run_loadLayer_of_isFile isFile reads l
  | malformed isFile content decoded unread =>
    have reads := Host.run_readConfig_eq content
    rw [textOf, decoded] at reads
    dsimp only at reads
    rw [unread] at reads
    exact Host.run_loadLayer_of_isFile isFile reads l
  | wellFormed isFile content decoded isConfig =>
    have reads := Host.run_readConfig_eq content
    rw [textOf, decoded] at reads
    dsimp only at reads
    rw [isConfig] at reads
    exact Host.run_loadLayer_of_isFile isFile reads l

/-- Something is found at every path. -/
theorem exists_finds (host : Host (StateM σ)) (path : Path) (s : σ) :
    ∃ found t, Finds host path s found t := by
  cases isFile : (host.isFile path).run s with
  | mk answer t =>
    cases answer with
    | false => exact ⟨_, _, .absent isFile⟩
    | true =>
      cases content : (host.read path).run t with
      | mk answer u =>
        cases answer with
        | error cause => exact ⟨_, _, .unreadable isFile content⟩
        | ok bytes =>
          cases decoded : Text.decode? bytes with
          | none => exact ⟨_, _, .noText isFile content decoded⟩
          | some text =>
            cases reads : Config.read? text with
            | none => exact ⟨_, _, .malformed isFile content decoded reads⟩
            | some config => exact ⟨_, _, .wellFormed isFile content decoded reads⟩

/-- Loading layers adds what is found, one after the other. -/
theorem Surveys.run_loadLayers {paths : List Path} {layers : List Layer}
    (surveys : Surveys host paths s layers t) (l : LoadedConfig) :
    (host.loadLayers l paths).run s =
      (layers.foldl (fun l layer => l.addLayer layer.path layer.found) l, t) := by
  induction surveys generalizing l with
  | done => rfl
  | next finds _ ih =>
    rw [Host.loadLayers, run_bind_of (finds.run_loadLayer l)]
    exact ih _

theorem exists_surveys (host : Host (StateM σ)) (paths : List Path) (s : σ) :
    ∃ layers t, Surveys host paths s layers t := by
  induction paths generalizing s with
  | nil => exact ⟨[], s, .done⟩
  | cons path rest ih =>
    obtain ⟨found, t, finds⟩ := exists_finds host path s
    obtain ⟨layers, u, later⟩ := ih t
    exact ⟨_, u, .next finds later⟩

variable {projectDir configDir user : Option Path} {project : Path}

/-- Without a name in the environment the user's directory is in that of the host. -/
theorem Host.run_userConfigDir_of_unnamed {answer : Option String} {home : Option Path} {u : σ}
    (asked : (host.environment? "SHADERPIPE_CONFIG_DIR").run s = (answer, t))
    (unnamed : answer = none ∨ answer = some "") (isHome : host.configHome.run t = (home, u)) :
    host.userConfigDir.run s = (home.map (·.child "shaderpipe"), u) := by
  have noName : answer.filter (! ·.isEmpty) = none := by
    rcases unnamed with rfl | rfl
    · rfl
    · rfl
  rw [Host.userConfigDir, run_bind_of asked, noName]
  exact (run_bind_of isHome).trans rfl

/-- The user's file is looked for in its place. -/
theorem UserPlace.run_userConfigPath (place : UserPlace host s user t) :
    host.userConfigPath.run s = (user, t) := by
  rw [Host.userConfigPath]
  cases place with
  | @named dir _ asked notEmpty =>
    have isNamed : (some dir).filter (! ·.isEmpty) = some dir := by simp [notEmpty]
    have isDir : host.userConfigDir.run s = (some ⟨dir⟩, t) := by
      rw [Host.userConfigDir, run_bind_of asked, isNamed]
      rfl
    exact (run_bind_of isDir).trans rfl
  | inHome asked unnamed hasHome =>
    exact (run_bind_of (Host.run_userConfigDir_of_unnamed asked unnamed hasHome)).trans rfl
  | nowhere asked unnamed noHome =>
    exact (run_bind_of (Host.run_userConfigDir_of_unnamed asked unnamed noHome)).trans rfl

theorem exists_userPlace (host : Host (StateM σ)) (s : σ) : ∃ user t, UserPlace host s user t := by
  have fromHost : ∀ answer t, (host.environment? "SHADERPIPE_CONFIG_DIR").run s = (answer, t) →
      (answer = none ∨ answer = some "") → ∃ user u, UserPlace host s user u := by
    intro answer t asked unnamed
    cases isHome : host.configHome.run t with
    | mk home u =>
      cases home with
      | none => exact ⟨_, u, .nowhere asked unnamed isHome⟩
      | some home => exact ⟨_, u, .inHome asked unnamed isHome⟩
  cases asked : (host.environment? "SHADERPIPE_CONFIG_DIR").run s with
  | mk answer t =>
    cases answer with
    | none => exact fromHost none t asked (.inl rfl)
    | some dir =>
      by_cases empty : dir = ""
      · exact fromHost (some dir) t asked (.inr (congrArg some empty))
      · exact ⟨_, t, .named asked empty⟩

/-- The layers are looked for where they are. -/
theorem Locates.run_layerPaths (locates : Locates host projectDir configDir s user project t) :
    (host.layerPaths projectDir configDir).run s = (user.toList ++ [project], t) := by
  obtain ⟨isUser, rfl⟩ := locates
  cases configDir with
  | some dir =>
    obtain ⟨rfl, rfl⟩ := isUser
    rfl
  | none =>
    rw [Host.layerPaths, run_bind_of isUser.run_userConfigPath]
    rfl

theorem exists_locates (host : Host (StateM σ)) (projectDir configDir : Option Path) (s : σ) :
    ∃ user project t, Locates host projectDir configDir s user project t := by
  cases configDir with
  | some dir => exact ⟨_, _, s, ⟨⟨rfl, rfl⟩, rfl⟩⟩
  | none =>
    obtain ⟨user, t, place⟩ := exists_userPlace host s
    exact ⟨user, _, t, ⟨place, rfl⟩⟩

/-- What deserves attention in a tools section says nothing about layers. -/
theorem ToolsSection.not_saysFailed {tools : ToolsSection} {dirExists : Bool}
    {warning : ConfigWarning} (member : warning ∈ tools.warnings dirExists) :
    ¬ warning.SaysFailed := by
  rw [ConfigWarning.saysFailed_iff]
  rintro ⟨path, error, rfl⟩
  rcases List.mem_append.1 member with ofTime | ofPrograms
  · split at ofTime
    · cases List.mem_singleton.1 ofTime
    · contradiction
  · split at ofPrograms
    · split at ofPrograms
      · contradiction
      · cases List.mem_singleton.1 ofPrograms
    · split at ofPrograms
      · cases List.mem_singleton.1 ofPrograms
      · contradiction

/-- Nor does what deserves attention in a configuration. -/
theorem Host.not_saysFailed_of_checkValues {config : Config} {values : List ConfigWarning}
    (checked : (host.checkValues config).run s = (values, t)) :
    ∀ warning ∈ values, ¬ warning.SaysFailed := by
  intro warning member
  rw [Host.checkValues] at checked
  cases isSet : config.tools with
  | none =>
    rw [isSet] at checked
    cases checked
    contradiction
  | some tools =>
    rw [isSet] at checked
    dsimp only at checked
    cases place : tools.binariesDir with
    | none =>
      rw [place] at checked
      cases checked
      exact ToolsSection.not_saysFailed member
    | some dir =>
      rw [place] at checked
      cases asked : (host.isDirectory dir).run s with
      | mk dirExists u =>
        dsimp only at checked
        rw [run_bind_of asked] at checked
        cases checked
        exact ToolsSection.not_saysFailed member

/-- **Layers of configurations.** Whatever is found in the places of the user and the project, a
configuration is loaded. Each of its sections is that of the last layer that was loaded and has it;
a layer that is there but cannot be used is as good as none, but for one warning, and such warnings
stand in front of those about the values, which depend on the tools section alone and on the host.
Merging is associative, and the empty configuration is neutral. -/
theorem loadConfig_layers (host : Host (StateM σ)) (projectDir configDir : Option Path) (s : σ) :
    (∃ user project t layers u, Locates host projectDir configDir s user project t ∧
      Surveys host (user.toList ++ [project]) t layers u) ∧
    (∀ user project t layers u, Locates host projectDir configDir s user project t →
      Surveys host (user.toList ++ [project]) t layers u →
        ∃ l values v, (host.loadConfig projectDir configDir).run s = (l, v) ∧
          (host.checkValues l.config).run u = (values, v) ∧ Loads layers values l) ∧
    (∀ config other : Config, config.tools = other.tools →
      host.checkValues config = host.checkValues other) ∧
    (∀ before after path error values otherValues l other,
      Loads (before ++ ⟨path, some (.error error)⟩ :: after) values l →
      Loads (before ++ ⟨path, none⟩ :: after) otherValues other →
        l.config = other.config ∧ l.sources = other.sources ∧ l.loadedFrom = other.loadedFrom ∧
          ∃ earlier later, l.warnings = earlier ++ .unusable path error :: (later ++ values) ∧
            other.warnings = earlier ++ (later ++ otherValues)) ∧
    (∀ a b c : Config, (a.merge b).merge c = a.merge (b.merge c)) ∧
    (∀ c : Config, Config.empty.merge c = c ∧ c.merge .empty = c) ∧
    ∀ configs : List Config,
      let merged := configs.foldl Config.merge .empty
      merged.tools = configs.reverse.findSome? (·.tools) ∧
        merged.pipelines = configs.reverse.findSome? (·.pipelines) ∧
        merged.logging = configs.reverse.findSome? (·.logging) := by
  refine ⟨?_, ?_, ?_, ?_, Config.merge_assoc, ?_, ?_⟩
  · obtain ⟨user, project, t, locates⟩ := exists_locates host projectDir configDir s
    obtain ⟨layers, u, surveys⟩ := exists_surveys host (user.toList ++ [project]) t
    exact ⟨user, project, t, layers, u, locates, surveys⟩
  · intro user project t layers u locates surveys
    let merged := layers.foldl (fun l layer => l.addLayer layer.path layer.found) LoadedConfig.empty
    cases checked : (host.checkValues merged.config).run u with
    | mk values v =>
      refine ⟨{ merged with warnings := merged.warnings ++ values }, values, v, ?_, checked,
        .of_layers layers (Host.not_saysFailed_of_checkValues checked)⟩
      rw [Host.loadConfig, run_bind_of locates.run_layerPaths,
        run_bind_of (surveys.run_loadLayers .empty), run_bind_of checked]
      rfl
  · intro config other same
    rw [Host.checkValues, Host.checkValues, same]
  · intro before after path error values otherValues l other loads otherLoads
    exact loads.of_broken otherLoads
  · intro c
    exact ⟨c.empty_merge, c.merge_empty⟩
  · intro configs
    exact ⟨Config.isSection_tools.merged configs, Config.isSection_pipelines.merged configs,
      Config.isSection_logging.merged configs⟩

/-- The user's layer is no text and the project's has a tools section that deserves attention: the
latter is what is loaded. -/
theorem loadConfig_layers_broken :
    let home := Location.root.child "user"
    let text := "[tools]\ntimeout_secs = 0\n"
    let content := Text.encode text
    let files := ((Files.empty.put home .directory).put (home.child "config.toml")
      (.file [0xFF] false)).put (Location.root.child "shaderpipe.toml") (.file content false)
    let machine : Machine := ⟨files, .root, .empty, 0⟩
    ∃ l machine', (Machine.scriptHost.loadConfig none (some ⟨"user"⟩)).run machine = (l, machine') ∧
      l.config.tools = some { ToolsSection.default with timeoutSeconds := 0 } ∧
      l.loadedFrom = [⟨"shaderpipe.toml"⟩] ∧
      l.warnings = [.unusable ⟨"user/config.toml"⟩
        (.unreadable ⟨"user/config.toml"⟩ .invalidText), .noTime] := by
  intro home text content files machine
  let path : Path := ⟨"user/config.toml"⟩
  let config : Config := ⟨some { ToolsSection.default with timeoutSeconds := 0 }, none, none⟩
  let layers : List Layer :=
    [⟨path, some (.error (.unreadable path .invalidText))⟩, ⟨⟨"shaderpipe.toml"⟩, some (.ok config)⟩]
  have locates : Locates Machine.scriptHost none (some ⟨"user"⟩) machine (some path)
      ⟨"shaderpipe.toml"⟩ machine := ⟨⟨by decide +kernel, rfl⟩, rfl⟩
  have broken : Finds Machine.scriptHost path machine
      (some (.error (.unreadable path .invalidText))) machine := by
    have isFile : (Machine.scriptHost.isFile path).run machine = (true, machine) :=
      Prod.ext (by decide +kernel) rfl
    have read : ((Machine.scriptHost.read path).run machine).1 = .ok [0xFF] := by
      decide +kernel
    exact .noText isFile (Prod.ext read rfl) (by decide +kernel)
  have wellFormed : Finds Machine.scriptHost ⟨"shaderpipe.toml"⟩ machine (some (.ok config))
      machine := by
    have isFile : (Machine.scriptHost.isFile ⟨"shaderpipe.toml"⟩).run machine = (true, machine) :=
      Prod.ext (by decide +kernel) rfl
    have read : ((Machine.scriptHost.read ⟨"shaderpipe.toml"⟩).run machine).1 = .ok content := by
      decide +kernel
    have decoded : Text.decode? content = some text := Text.decode?_encode text
    exact .wellFormed isFile (Prod.ext read rfl) decoded (by decide +kernel)
  have surveys : Surveys Machine.scriptHost [path, ⟨"shaderpipe.toml"⟩] machine layers machine :=
    .next broken (.next wellFormed .done)
  obtain ⟨_, isLoaded, onlyTools, _⟩ :=
    loadConfig_layers Machine.scriptHost none (some ⟨"user"⟩) machine
  obtain ⟨l, values, v, ran, checked, loads⟩ := isLoaded _ _ _ _ _ locates surveys
  have tools : l.config.tools = config.tools := loads.tools
  have values_eq : values = [.noTime] := by
    rw [onlyTools l.config config tools] at checked
    have warns : ((Machine.scriptHost.checkValues config).run machine).1 = [.noTime] := by
      decide +kernel
    rw [← warns, checked]
  refine ⟨l, v, ran, tools, loads.loadedFrom.trans (by decide +kernel), ?_⟩
  rw [loads.warnings, values_eq]
  rfl

end ShaderChain
