import ShaderChain.Config.Basic
import ShaderChain.Proofs.Document
import ShaderChain.Proofs.Toml.RoundTrip
import ShaderChain.Proofs.Toml.Value

/-!
# Configurations read back

A configuration that is written as TOML and read again is the same configuration
(`Config.read_listing`). A section is written under a header of its own, also
one whose fields are all left out, and so an empty section is told from one
that is absent. The only configurations that cannot be written are those whose
time limit is beyond the integers of TOML (`Config.write_listing_eq_none_iff`).

The programs and the versions of tools form tables, which have no order of their
own: they may be written in any order, which is a *listing*.
-/

set_option autoImplicit false

namespace ShaderChain

open Toml (Entries optionalEntry)
open Toml.Node

/-! ## Documents with listed programs and versions -/

/-- The programs and the versions of tools in some order. -/
structure ToolsSection.Listing where
  executables : List (String × Path)
  versions : List (String × List String)

namespace ToolsSection

/-- Whether a listing holds exactly the programs and the versions of the section. -/
def Listed (s : ToolsSection) (l : Listing) : Prop :=
  l.executables.Perm s.executables.entries ∧ l.versions.Perm s.versions.entries

/-- The programs and the versions in the order of the tools' names. -/
def listing (s : ToolsSection) : Listing := ⟨s.executables.entries, s.versions.entries⟩

theorem listed_listing (s : ToolsSection) : s.Listed s.listing := ⟨.refl _, .refl _⟩

/-- The document of the section, its programs and versions being listed so. -/
def documentListing (s : ToolsSection) (l : Listing) : Document :=
  .table
    [("binaries_dir", optionalPath s.binariesDir),
     ("timeout_secs", .int s.timeoutSeconds.toNat),
     ("executables", .table (l.executables.map fun entry => (entry.1, .text entry.2.text))),
     ("versions", .table (l.versions.map fun entry => (entry.1, .texts entry.2)))]

/-- The tree of the section. -/
def tree (s : ToolsSection) (l : Listing) : Entries :=
  optionalEntry "binaries_dir" (s.binariesDir.map fun p => leaf (.text p.text)) ++
    [("timeout_secs", leaf (.int s.timeoutSeconds.toNat)),
     ("executables",
      table .explicit (l.executables.map fun entry => (entry.1, leaf (.text entry.2.text)))),
     ("versions",
      table .explicit (l.versions.map fun entry => (entry.1, leaf (.texts entry.2))))]

end ToolsSection

/-- The tree of the section. -/
def PipelinesSection.tree (s : PipelinesSection) : Entries :=
  optionalEntry "dir" (s.dir.map fun p => leaf (.text p.text)) ++ []

/-- The tree of the section. -/
def LoggingSection.tree (s : LoggingSection) : Entries :=
  ("level", leaf (.text s.level)) ::
    (optionalEntry "file_dir" (s.fileDir.map fun p => leaf (.text p.text)) ++ [])

namespace Config

/-- Whether a listing holds exactly the programs and the versions of the configuration. -/
def Listed (c : Config) (l : ToolsSection.Listing) : Prop := ∀ s, c.tools = some s → s.Listed l

/-- The document of the configuration, its programs and versions being listed so. -/
def documentListing (c : Config) (l : ToolsSection.Listing) : Document :=
  .table
    [("tools", (c.tools.map fun s => s.documentListing l).getD .null),
     ("pipelines", (c.pipelines.map PipelinesSection.toDocument).getD .null),
     ("logging", (c.logging.map LoggingSection.toDocument).getD .null)]

/-- The programs and the versions in the order of the tools' names. -/
def listing (c : Config) : ToolsSection.Listing := c.effectiveTools.listing

theorem listed_listing (c : Config) : c.Listed c.listing := by
  intro s present
  rw [listing, effectiveTools, present]
  exact s.listed_listing

theorem documentListing_listing (c : Config) : c.documentListing c.listing = c.toDocument := by
  obtain ⟨tools, pipelines, logging⟩ := c
  cases tools with
  | none => rfl
  | some s => rfl

/-- The tree of the configuration: a table with a header for each of its sections. -/
def tree (c : Config) (l : ToolsSection.Listing) : Entries :=
  optionalEntry "tools" (c.tools.map fun s => table .explicit (s.tree l)) ++
    (optionalEntry "pipelines" (c.pipelines.map fun s => table .explicit s.tree) ++
      (optionalEntry "logging" (c.logging.map fun s => table .explicit s.tree) ++ []))

end Config

/-! ## Their trees are tidy -/

theorem ToolsSection.tidy_tree {s : ToolsSection} {l : Listing} (listed : s.Listed l)
    (within : (s.timeoutSeconds.toNat : Int) ≤ Integer.greatest) :
    Tidy (table .explicit (s.tree l)) := by
  obtain ⟨executables, versions⟩ := listed
  have executableNames : (l.executables.map Prod.fst).Nodup :=
    (executables.map Prod.fst).nodup_iff.2 s.executables.nodup_names
  have versionNames : (l.versions.map Prod.fst).Nodup :=
    (versions.map Prod.fst).nodup_iff.2 s.versions.nodup_names
  have timeout : Toml.Rereads (.int s.timeoutSeconds.toNat) :=
    Toml.rereads_int (by simp [Integer.least]) within
  constructor
  · rw [tree]
    cases s.binariesDir with
    | none => rfl
    | some dir => rfl
  · rw [tree]
    apply Toml.tidy_optional_leaf (fun p : Path => Toml.rereads_text p.text) (by simp [Fresh])
    apply Toml.tidy_leaf timeout (by simp [Fresh])
    apply Toml.tidy_section _ (by simp [Fresh]) rfl
    · exact Toml.tidy_single (Toml.tidy_table Toml.rereads_texts versionNames)
    · exact Toml.tidy_table (fun p : Path => Toml.rereads_text p.text) executableNames

theorem PipelinesSection.tidy_tree (s : PipelinesSection) : Tidy (table .explicit s.tree) := by
  constructor
  · rw [tree]
    cases s.dir with
    | none => rfl
    | some dir => rfl
  · exact Toml.tidy_optional_leaf (fun p : Path => Toml.rereads_text p.text) List.not_mem_nil trivial

theorem LoggingSection.tidy_tree (s : LoggingSection) : Tidy (table .explicit s.tree) := by
  constructor
  · rfl
  · apply Toml.tidy_leaf (Toml.rereads_text s.level)
    case fresh => cases s.fileDir <;> simp [optionalEntry, Fresh]
    case later =>
      exact Toml.tidy_optional_leaf (fun p : Path => Toml.rereads_text p.text) List.not_mem_nil
        trivial

namespace Config

/-- Whether the time limit, if there is one, is an integer of TOML. -/
def TimeWithin (c : Config) : Prop :=
  ∀ s, c.tools = some s → (s.timeoutSeconds.toNat : Int) ≤ Integer.greatest

theorem tidy_tree {c : Config} {l : ToolsSection.Listing} (listed : c.Listed l)
    (within : c.TimeWithin) : EntriesTidy (c.tree l) := by
  apply Toml.tidy_optional_section
  case own => exact fun s present => s.tidy_tree (listed s present) (within s present)
  case fresh => cases c.pipelines <;> cases c.logging <;> simp [optionalEntry, Fresh]
  case noPairs => cases c.pipelines <;> cases c.logging <;> rfl
  case later =>
    apply Toml.tidy_optional_section
    case own => exact fun s _ => s.tidy_tree
    case fresh => cases c.logging <;> simp [optionalEntry, Fresh]
    case noPairs => cases c.logging <;> rfl
    case later =>
      exact Toml.tidy_optional_section (fun s _ => s.tidy_tree) List.not_mem_nil rfl trivial

end Config

/-! ## What is written is their trees -/

theorem ToolsSection.optionalPath_eq (p : Option Path) :
    optionalPath p = (p.map fun p => Document.text p.text).getD .null := by
  cases p with
  | none => rfl
  | some p => rfl

theorem ToolsSection.withoutNull_documentListing (s : ToolsSection) (l : Listing) :
    Toml.withoutNull (s.documentListing l) = .table (entryDocuments (s.tree l)) := by
  have executables := Toml.entriesWithoutNull_map (fun p : Path => Toml.rereads_text p.text)
    l.executables
  have versions := Toml.entriesWithoutNull_map Toml.rereads_texts l.versions
  rw [documentListing, optionalPath_eq, Toml.withoutNull, tree, Toml.entryDocuments_optional,
    Toml.entriesWithoutNull_optional fun _ _ => rfl]
  simp [Toml.entriesWithoutNull, Toml.isNull, Toml.withoutNull, entryDocuments,
    Toml.Node.toDocument, executables, versions, Toml.entryDocuments_leaves,
    Toml.entryDocuments_leaves fun p : Path => .text p.text]

theorem PipelinesSection.withoutNull_toDocument (s : PipelinesSection) :
    Toml.withoutNull s.toDocument = .table (entryDocuments s.tree) := by
  rw [PipelinesSection.toDocument, ToolsSection.optionalPath_eq, Toml.withoutNull, tree,
    Toml.entryDocuments_optional, Toml.entriesWithoutNull_optional fun _ _ => rfl]
  rfl

theorem LoggingSection.withoutNull_toDocument (s : LoggingSection) :
    Toml.withoutNull s.toDocument = .table (entryDocuments s.tree) := by
  rw [LoggingSection.toDocument, ToolsSection.optionalPath_eq, Toml.withoutNull, tree,
    entryDocuments, Toml.entryDocuments_optional, Toml.entriesWithoutNull, if_neg nofun,
    Toml.entriesWithoutNull_optional fun _ _ => rfl]
  rfl

theorem Config.withoutNull_documentListing (c : Config) (l : ToolsSection.Listing) :
    Toml.withoutNull (c.documentListing l) = .table (entryDocuments (c.tree l)) := by
  rw [documentListing, Toml.withoutNull, tree, Toml.entryDocuments_optional,
    Toml.entryDocuments_optional, Toml.entryDocuments_optional,
    Toml.entriesWithoutNull_optional fun _ _ => rfl,
    Toml.entriesWithoutNull_optional fun _ _ => rfl,
    Toml.entriesWithoutNull_optional fun _ _ => rfl]
  simp only [ToolsSection.withoutNull_documentListing, PipelinesSection.withoutNull_toDocument,
    LoggingSection.withoutNull_toDocument]
  rfl

/-! ## Reading documents -/

theorem ToolsSection.ofDocument?_tree {s : ToolsSection} {l : Listing} (listed : s.Listed l) :
    ToolsSection.ofDocument? (.table (entryDocuments (s.tree l))) = some s := by
  have directory : Document.orDefault? none (Document.optional? path?)
      (s.binariesDir.map fun p => .text p.text) = some s.binariesDir :=
    Document.orDefault?_optional (fun p _ => rfl) fun _ _ => nofun
  have executables : Document.table? path?
      (.table (l.executables.map fun entry => (entry.1, .text entry.2.text))) =
        some s.executables :=
    Document.table?_of_perm (fun p : Path => .text p.text) (fun _ => rfl) listed.1
  have versions : Document.table? (Document.list? Document.text?)
      (.table (l.versions.map fun entry => (entry.1, .texts entry.2))) = some s.versions :=
    Document.table?_of_perm Document.texts (Document.list?_map fun _ => rfl) listed.2
  have record : (Document.table (entryDocuments (s.tree l))).record? fields =
      some [s.binariesDir.map fun p => .text p.text, some (.int s.timeoutSeconds.toNat),
        some (.table (l.executables.map fun entry => (entry.1, .text entry.2.text))),
        some (.table (l.versions.map fun entry => (entry.1, .texts entry.2)))] := by
    have executables := Toml.entryDocuments_leaves (fun p : Path => .text p.text) l.executables
    have versions := Toml.entryDocuments_leaves Document.texts l.versions
    rw [tree, ← executables, ← versions]
    cases s.binariesDir with
    | none => rfl
    | some dir => rfl
  rw [ofDocument?, record]
  simp only [directory, Document.orDefault?_some, Document.uint64?_toNat, executables, versions]

theorem PipelinesSection.ofDocument?_tree (s : PipelinesSection) :
    PipelinesSection.ofDocument? (.table (entryDocuments s.tree)) = some s := by
  obtain ⟨dir⟩ := s
  cases dir with
  | none => rfl
  | some dir => rfl

theorem LoggingSection.ofDocument?_tree (s : LoggingSection) :
    LoggingSection.ofDocument? (.table (entryDocuments s.tree)) = some s := by
  obtain ⟨level, fileDir⟩ := s
  cases fileDir with
  | none => rfl
  | some dir => rfl

namespace Config

/-- The tree of a configuration holds its sections. -/
theorem ofDocument?_tree {c : Config} {l : ToolsSection.Listing} (listed : c.Listed l) :
    Config.ofDocument? (.table (entryDocuments (c.tree l))) = some c := by
  have tools : Document.orDefault? none (Document.optional? ToolsSection.ofDocument?)
      (c.tools.map fun s => .table (entryDocuments (s.tree l))) = some c.tools :=
    Document.orDefault?_optional (fun s present => s.ofDocument?_tree (listed s present))
      fun _ _ => nofun
  have pipelines : Document.orDefault? none (Document.optional? PipelinesSection.ofDocument?)
      (c.pipelines.map fun s => .table (entryDocuments s.tree)) = some c.pipelines :=
    Document.orDefault?_optional (fun s _ => s.ofDocument?_tree) fun _ _ => nofun
  have logging : Document.orDefault? none (Document.optional? LoggingSection.ofDocument?)
      (c.logging.map fun s => .table (entryDocuments s.tree)) = some c.logging :=
    Document.orDefault?_optional (fun s _ => s.ofDocument?_tree) fun _ _ => nofun
  have record : (Document.table (entryDocuments (c.tree l))).record? fields =
      some [c.tools.map fun s => .table (entryDocuments (s.tree l)),
        c.pipelines.map fun s => .table (entryDocuments s.tree),
        c.logging.map fun s => .table (entryDocuments s.tree)] := by
    rw [tree]
    cases c.tools <;> cases c.pipelines <;> cases c.logging <;> rfl
  rw [ofDocument?, record]
  simp only [tools, pipelines, logging]

/-- A configuration that can be written reads back, whatever the order of its tables. -/
theorem read_listing {c : Config} {l : ToolsSection.Listing} (listed : c.Listed l)
    (within : c.TimeWithin) : read? (Toml.write (c.documentListing l)) = some c := by
  have document := Toml.read?_write_of_withoutNull (tidy_tree listed within)
    (c.withoutNull_documentListing l)
  rw [read?, document, Option.bind_some, ofDocument?_tree listed]

end Config

/-! ## What can be written -/

theorem Toml.isWritable_texts (items : List String) : isWritable (.texts items) = true := by
  rw [Document.texts, isWritable]
  induction items with
  | nil => rfl
  | cons item items ih => exact ih

theorem ToolsSection.isWritable_optionalPath (p : Option Path) :
    Toml.isWritable (optionalPath p) = true := by
  cases p with
  | none => rfl
  | some p => rfl

theorem ToolsSection.isWritable_documentListing_iff (s : ToolsSection) (l : Listing) :
    Toml.isWritable (s.documentListing l) = true ↔
      (s.timeoutSeconds.toNat : Int) ≤ Integer.greatest := by
  have executables := Toml.entriesWritable_map (fun p : Path => .text p.text) (fun _ => rfl)
    l.executables
  have versions := Toml.entriesWritable_map Document.texts Toml.isWritable_texts l.versions
  have low : Integer.least ≤ (s.timeoutSeconds.toNat : Int) := by
    simp [Integer.least]
  simp [documentListing, Toml.isWritable, Toml.entriesWritable, isWritable_optionalPath,
    executables, versions, low]

theorem PipelinesSection.isWritable_toDocument (s : PipelinesSection) :
    Toml.isWritable s.toDocument = true := by
  simp [PipelinesSection.toDocument, Toml.isWritable, Toml.entriesWritable,
    ToolsSection.isWritable_optionalPath]

theorem LoggingSection.isWritable_toDocument (s : LoggingSection) :
    Toml.isWritable s.toDocument = true := by
  simp [LoggingSection.toDocument, Toml.isWritable, Toml.entriesWritable,
    ToolsSection.isWritable_optionalPath]

namespace Config

/-- A configuration can be written if its time limit is an integer of TOML. -/
theorem isWritable_documentListing_iff (c : Config) (l : ToolsSection.Listing) :
    Toml.isWritable (c.documentListing l) = true ↔ c.TimeWithin := by
  obtain ⟨tools, pipelines, logging⟩ := c
  have lower : Toml.isWritable ((pipelines.map PipelinesSection.toDocument).getD .null) = true ∧
      Toml.isWritable ((logging.map LoggingSection.toDocument).getD .null) = true := by
    constructor
    · cases pipelines with
      | none => rfl
      | some s => exact s.isWritable_toDocument
    · cases logging with
      | none => rfl
      | some s => exact s.isWritable_toDocument
  cases tools with
  | none => simp [documentListing, TimeWithin, Toml.isWritable, Toml.entriesWritable, lower]
  | some s =>
    have own := s.isWritable_documentListing_iff l
    simp [documentListing, TimeWithin, Toml.isWritable, Toml.entriesWritable, lower, own]

/-- What is written of a configuration reads back as the configuration. -/
theorem read_of_write_listing {c : Config} {l : ToolsSection.Listing} (listed : c.Listed l)
    {text : String} (written : Toml.write? (c.documentListing l) = some text) :
    read? text = some c := by
  rw [Toml.write?, Option.ite_none_right_eq_some, c.isWritable_documentListing_iff l] at written
  obtain ⟨within, same⟩ := written
  cases same
  exact read_listing listed within

theorem write_listing_eq_none_iff (c : Config) (l : ToolsSection.Listing) :
    Toml.write? (c.documentListing l) = none ↔
      ∃ s, c.tools = some s ∧ Integer.greatest < s.timeoutSeconds.toNat := by
  rw [Toml.write?, ite_eq_right_iff]
  simp [c.isWritable_documentListing_iff l, TimeWithin]

end Config

end ShaderChain
