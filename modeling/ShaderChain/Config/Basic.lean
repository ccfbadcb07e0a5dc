import ShaderChain.Machine.Path
import ShaderChain.Pipeline.Step
import ShaderChain.Toml.Reader
import ShaderChain.Toml.Writer

/-!
# Configuration

A configuration has three sections, each of which may be absent: where tools are
found, where pipeline definitions are found, and logging. Absent sections have
defaults, and of two configurations one on top of the other each section is
taken whole from the upper one if it is there (`Config.merge`).

Configurations are written in TOML (`Config.write?`, `Config.read?`).
-/

set_option autoImplicit false

namespace ShaderChain

/-- Where the programs of tools are, which versions there are, and how many seconds they may
run. -/
structure ToolsSection where
  binariesDir : Option Path
  timeoutSeconds : UInt64
  executables : Table Path
  versions : Table (List String)
deriving DecidableEq

/-- The directory of pipeline definitions. -/
structure PipelinesSection where
  dir : Option Path
deriving DecidableEq

/-- How much is logged, and the directory of log files. -/
structure LoggingSection where
  level : String
  fileDir : Option Path
deriving DecidableEq

/-- A configuration. -/
structure Config where
  tools : Option ToolsSection
  pipelines : Option PipelinesSection
  logging : Option LoggingSection
deriving DecidableEq

namespace ToolsSection

/-- Programs are found by their names alone and may run for half a minute. -/
def default : ToolsSection := ⟨none, 30, .empty, .empty⟩

/-- The document of an optional path. -/
def optionalPath (p : Option Path) : Document := .optionalText (p.map Path.text)

/-- The path of a document. -/
def path? (d : Document) : Option Path := d.text?.map Path.mk

/-- The document of the section. -/
def toDocument (s : ToolsSection) : Document :=
  .table
    [("binaries_dir", optionalPath s.binariesDir),
     ("timeout_secs", .int s.timeoutSeconds.toNat),
     ("executables", .table (s.executables.entries.map fun entry =>
       (entry.1, .text entry.2.text))),
     ("versions", .table (s.versions.entries.map fun entry =>
       (entry.1, .texts entry.2)))]

/-- The fields of the section's document. -/
def fields : List Document.Field :=
  [⟨"binaries_dir", .defaulted⟩, ⟨"timeout_secs", .defaulted⟩, ⟨"executables", .defaulted⟩,
   ⟨"versions", .defaulted⟩]

/-- The section of a document. -/
def ofDocument? (d : Document) : Option ToolsSection :=
  match d.record? fields with
  | some [binariesDir, timeoutSeconds, executables, versions] =>
    match Document.orDefault? none (Document.optional? path?) binariesDir,
        Document.orDefault? default.timeoutSeconds Document.uint64? timeoutSeconds,
        Document.orDefault? .empty (Document.table? path?) executables,
        Document.orDefault? .empty (Document.table? (Document.list? Document.text?)) versions with
    | some binariesDir, some timeoutSeconds, some executables, some versions =>
      some ⟨binariesDir, timeoutSeconds, executables, versions⟩
    | _, _, _, _ => none
  | _ => none

end ToolsSection

namespace PipelinesSection

/-- No directory. -/
def default : PipelinesSection := ⟨none⟩

/-- The document of the section. -/
def toDocument (s : PipelinesSection) : Document :=
  .table [("dir", ToolsSection.optionalPath s.dir)]

/-- The section of a document. -/
def ofDocument? (d : Document) : Option PipelinesSection :=
  match d.record? [⟨"dir", .defaulted⟩] with
  | some [dir] =>
    (Document.orDefault? none (Document.optional? ToolsSection.path?) dir).map PipelinesSection.mk
  | _ => none

end PipelinesSection

namespace LoggingSection

/-- The usual level, and no files. -/
def default : LoggingSection := ⟨"info", none⟩

/-- The document of the section. -/
def toDocument (s : LoggingSection) : Document :=
  .table [("level", .text s.level), ("file_dir", ToolsSection.optionalPath s.fileDir)]

/-- The section of a document. -/
def ofDocument? (d : Document) : Option LoggingSection :=
  match d.record? [⟨"level", .defaulted⟩, ⟨"file_dir", .defaulted⟩] with
  | some [level, fileDir] =>
    match Document.orDefault? default.level Document.text? level,
        Document.orDefault? none (Document.optional? ToolsSection.path?) fileDir with
    | some level, some fileDir => some ⟨level, fileDir⟩
    | _, _ => none
  | _ => none

end LoggingSection

namespace Config

/-- The configuration without sections. -/
def empty : Config := ⟨none, none, none⟩

/-- The configuration with `upper` on top: of each section the upper one if there is one. -/
def merge (lower upper : Config) : Config :=
  ⟨upper.tools.or lower.tools, upper.pipelines.or lower.pipelines, upper.logging.or lower.logging⟩

/-- The tools section in effect. -/
def effectiveTools (c : Config) : ToolsSection := c.tools.getD .default

/-- The pipelines section in effect. -/
def effectivePipelines (c : Config) : PipelinesSection := c.pipelines.getD .default

/-- The logging section in effect. -/
def effectiveLogging (c : Config) : LoggingSection := c.logging.getD .default

/-- The document of a configuration. -/
def toDocument (c : Config) : Document :=
  .table
    [("tools", (c.tools.map ToolsSection.toDocument).getD .null),
     ("pipelines", (c.pipelines.map PipelinesSection.toDocument).getD .null),
     ("logging", (c.logging.map LoggingSection.toDocument).getD .null)]

/-- The fields of a configuration's document. -/
def fields : List Document.Field :=
  [⟨"tools", .defaulted⟩, ⟨"pipelines", .defaulted⟩, ⟨"logging", .defaulted⟩]

/-- The configuration of a document. -/
def ofDocument? (d : Document) : Option Config :=
  match d.record? fields with
  | some [tools, pipelines, logging] =>
    match Document.orDefault? none (Document.optional? ToolsSection.ofDocument?) tools,
        Document.orDefault? none (Document.optional? PipelinesSection.ofDocument?) pipelines,
        Document.orDefault? none (Document.optional? LoggingSection.ofDocument?) logging with
    | some tools, some pipelines, some logging => some ⟨tools, pipelines, logging⟩
    | _, _, _ => none
  | _ => none

/-- The configuration as TOML; there is none if the time limit is beyond its integers. -/
def write? (c : Config) : Option String := Toml.write? c.toDocument

/-- The configuration that a TOML text holds. -/
def read? (text : String) : Option Config := (Toml.read? text).bind ofDocument?

end Config

end ShaderChain
