import ShaderChain.Config.Basic
import ShaderChain.Config.Error
import ShaderChain.Host

/-!
# Finding, loading and saving configurations

The configuration in effect has two layers: the user's, in the user's directory
for configurations, and on top of it the one of the project. A layer that is not
there is left out; so is one that cannot be read, with a warning. More warnings
come from values that can hardly be meant.
-/

set_option autoImplicit false

namespace ShaderChain

/-- A file that was looked at for a layer, and whether it was taken. -/
structure ConfigSource where
  path : Path
  loaded : Bool
deriving DecidableEq

/-- What deserves attention in the layers or in the configuration they make up. -/
inductive ConfigWarning where
  | unusable (path : Path) (error : ConfigError)
  | noTime
  | noBinariesDir (dir : Path)
  | versionsIgnored
deriving DecidableEq

namespace ConfigWarning

/-- The warning in words. -/
def message : ConfigWarning → String
  | unusable path error => "Failed to load " ++ path.text ++ ": " ++ error.message
  | noTime => "[tools] timeout_secs is 0; every tool invocation will time out"
  | noBinariesDir dir => "[tools] binaries_dir '" ++ dir.text ++ "' does not exist"
  | versionsIgnored =>
    "[tools.versions] is ignored without [tools] binaries_dir; only trunk is available"

end ConfigWarning

/-- The configuration in effect, the files that were looked at, the least important first, and
what deserves attention. -/
structure LoadedConfig where
  config : Config
  sources : List ConfigSource
  warnings : List ConfigWarning
deriving DecidableEq

namespace LoadedConfig

/-- Nothing loaded yet. -/
def empty : LoadedConfig := ⟨.empty, [], []⟩

/-- The files that were taken. -/
def loadedFrom (l : LoadedConfig) : List Path := (l.sources.filter (·.loaded)).map (·.path)

/-- One more layer, on top: `none` if there is no file, else what was read from it. -/
def addLayer (l : LoadedConfig) (path : Path) :
    Option (Except ConfigError Config) → LoadedConfig
  | none => { l with sources := l.sources ++ [⟨path, false⟩] }
  | some (.error error) =>
    { l with
      sources := l.sources ++ [⟨path, false⟩]
      warnings := l.warnings ++ [.unusable path error] }
  | some (.ok config) =>
    { l with config := l.config.merge config, sources := l.sources ++ [⟨path, true⟩] }

end LoadedConfig

/-- What deserves attention in a tools section; `dirExists` tells whether its directory of
programs is there. -/
def ToolsSection.warnings (s : ToolsSection) (dirExists : Bool) : List ConfigWarning :=
  (if s.timeoutSeconds = 0 then [.noTime] else []) ++
  (match s.binariesDir with
    | some dir => if dirExists then [] else [.noBinariesDir dir]
    | none => if s.versions.values.any (! ·.isEmpty) then [.versionsIgnored] else [])

/-- The name of a project's configuration file. -/
def projectFile : String := "shaderpipe.toml"

/-- The name of the user's configuration file. -/
def userFile : String := "config.toml"

namespace Host

variable {m : Type → Type} [Monad m]

/-- The configuration that a file holds. -/
def readConfig (host : Host m) (path : Path) : m (Except ConfigError Config) := do
  match ← host.readText path with
  | .error cause => return .error (.unreadable path cause)
  | .ok text =>
    match Config.read? text with
    | some config => return .ok config
    | none => return .error .parse

/-- The user's directory for this library's configuration. -/
def userConfigDir (host : Host m) : m (Option Path) := do
  match (← host.environment? "SHADERPIPE_CONFIG_DIR").filter (! ·.isEmpty) with
  | some dir => return some ⟨dir⟩
  | none => return (← host.configHome).map (·.child "shaderpipe")

/-- The path of the user's configuration file. -/
def userConfigPath (host : Host m) : m (Option Path) := do
  return (← host.userConfigDir).map (·.child userFile)

/-- Adds the layer of a file. -/
def loadLayer (host : Host m) (l : LoadedConfig) (path : Path) : m LoadedConfig := do
  if ← host.isFile path then return l.addLayer path (some (← host.readConfig path))
  else return l.addLayer path none

/-- Adds the layers of several files. -/
def loadLayers (host : Host m) (l : LoadedConfig) : List Path → m LoadedConfig
  | [] => return l
  | path :: rest => do host.loadLayers (← host.loadLayer l path) rest

/-- What deserves attention in a configuration. -/
def checkValues (host : Host m) (config : Config) : m (List ConfigWarning) := do
  match config.tools with
  | none => return []
  | some tools =>
    let dirExists ← match tools.binariesDir with
      | some dir => host.isDirectory dir
      | none => pure false
    return tools.warnings dirExists

/-- The files of the layers, the least important first: the user's, if there is a directory for
it, and the project's. -/
def layerPaths (host : Host m) (projectDir configDir : Option Path) : m (List Path) := do
  let user ← match configDir with
    | some dir => pure (some (dir.child userFile))
    | none => host.userConfigPath
  let project := (projectDir.map (·.child projectFile)).getD ⟨projectFile⟩
  return user.toList ++ [project]

/-- Loads the configuration in effect. `configDir` stands for the user's directory if it is
given. -/
def loadConfig (host : Host m) (projectDir configDir : Option Path) : m LoadedConfig := do
  let l ← host.loadLayers .empty (← host.layerPaths projectDir configDir)
  return { l with warnings := l.warnings ++ (← host.checkValues l.config) }

/-- Makes the directory of a file that is to be written. -/
def prepareDirectory (host : Host m) (path : Path) : ExceptT ConfigError m Unit := do
  match path.parent? with
  | none => return ()
  | some parent =>
    match ← host.makeDirectories parent with
    | .ok _ => return ()
    | .error cause => throw (.unwritable parent cause)

/-- Saves a configuration in a file, whose directory is made if need be. A configuration that
cannot be written out leaves the file as it was. -/
def saveConfig (host : Host m) (config : Config) (path : Path) : ExceptT ConfigError m Unit := do
  host.prepareDirectory path
  match config.write? with
  | none => throw .serialize
  | some text =>
    match ← host.writeText path text with
    | .ok _ => return ()
    | .error cause => throw (.unwritable path cause)

end Host

end ShaderChain
