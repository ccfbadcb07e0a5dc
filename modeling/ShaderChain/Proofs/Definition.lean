import Mathlib.Data.List.Forall2
import ShaderChain.Definition
import ShaderChain.Proofs.Document
import ShaderChain.Proofs.Toml.RoundTrip

/-!
# Pipeline definitions read back

A definition that is written and read again is the same definition, whatever
its texts are (`definition_round_trip`).

The arguments of a step form a table, which has no order of its own: they may be
written in any order. A choice of orders is a *listing* of each step's
arguments, and every listing reads back as the same definition.
-/

set_option autoImplicit false

namespace ShaderChain

open Toml (Entries)
open Toml.Node

/-! ## Documents with listed arguments -/

/-- The document of a step whose arguments are listed in some order. -/
def Step.documentListing (s : Step) (arguments : List (String × String)) : Document :=
  .table [("tool", .text s.tool),
    ("arguments", .table (arguments.map fun entry => (entry.1, .text entry.2)))]

namespace Definition

/-- Lists for the arguments of each step. -/
abbrev Listings := List (List (String × String))

/-- Whether the lists hold exactly the arguments of the steps, each in some order. -/
def Listed (d : Definition) (listings : Listings) : Prop :=
  List.Forall₂ (fun s listing => listing.Perm s.arguments.entries) d.steps listings

/-- The document of a file that holds the definition, its arguments being listed so. -/
def fileDocumentListing (d : Definition) (listings : Listings) : Document :=
  .table [("pipeline", .table
    ([("name", .text d.name), ("description", .text d.description)] ++
      (d.language.map fun language => ("language", Document.text language)).toList ++
      [("steps", .list (List.zipWith Step.documentListing d.steps listings))]))]

theorem fileDocumentListing_entries (d : Definition) :
    d.fileDocumentListing (d.steps.map fun s => s.arguments.entries) = d.toFileDocument := by
  have steps : List.zipWith Step.documentListing d.steps
      (d.steps.map fun s => s.arguments.entries) = d.steps.map Step.toDocument := by
    induction d.steps with
    | nil => rfl
    | cons s steps ih => exact congrArg _ ih
  rw [fileDocumentListing, steps]
  rfl

/-! ## Their trees -/

/-- The tree of a step whose arguments are listed in some order. -/
def stepTree (s : Step) (arguments : List (String × String)) : Entries :=
  [("tool", leaf (.text s.tool)),
    ("arguments", table .explicit (arguments.map fun entry => (entry.1, leaf (.text entry.2))))]

/-- The tree of the steps. -/
def stepsTree (steps : List Step) (listings : Listings) : Toml.Node :=
  if steps = [] then leaf (.list []) else elements (List.zipWith stepTree steps listings)

/-- The tree of a file that holds the definition. -/
def fileTree (d : Definition) (listings : Listings) : Entries :=
  [("pipeline", table .explicit
    ([("name", leaf (.text d.name)), ("description", leaf (.text d.description))] ++
      (d.language.map fun language => ("language", leaf (.text language))).toList ++
      [("steps", stepsTree d.steps listings)]))]

theorem tidy_stepTree (s : Step) {arguments : List (String × String)}
    (distinct : (arguments.map Prod.fst).Nodup) : EntriesTidy (stepTree s arguments) :=
  Toml.tidy_leaf (Toml.rereads_text s.tool) (by simp [Fresh])
    (Toml.tidy_single (Toml.tidy_table Toml.rereads_text distinct))

theorem tidy_stepsTree {steps : List Step} {listings : Listings}
    (listed : List.Forall₂ (fun s listing => listing.Perm s.arguments.entries) steps listings) :
    Tidy (stepsTree steps listings) := by
  have elements : ElementsTidy (List.zipWith stepTree steps listings) := by
    induction listed with
    | nil => trivial
    | @cons s listing steps listings same _ ih =>
      exact ⟨tidy_stepTree s ((same.map Prod.fst).nodup_iff.2 s.arguments.nodup_names), ih⟩
  rw [stepsTree]
  split
  case isTrue => exact Toml.rereads_noItems
  case isFalse nonempty =>
    refine ⟨fun none => ?_, elements⟩
    cases listed with
    | nil => exact nonempty rfl
    | cons => cases none

theorem tidy_fileTree {d : Definition} {listings : Listings} (listed : d.Listed listings) :
    EntriesTidy (d.fileTree listings) := by
  have steps : EntriesTidy [("steps", stepsTree d.steps listings)] :=
    Toml.tidy_single (tidy_stepsTree listed)
  have origin (more : Entries) :
      Toml.Origin.explicit = originOf (("name", leaf (.text d.name)) :: more) :=
    (if_neg fun sectionsOnly => nomatch sectionsOnly.1).symm
  refine Toml.tidy_single ⟨origin _, ?_⟩
  apply Toml.tidy_leaf (Toml.rereads_text d.name)
  case fresh => cases d.language <;> simp [Fresh]
  case later =>
    apply Toml.tidy_leaf (Toml.rereads_text d.description)
    case fresh => cases d.language <;> simp [Fresh]
    case later =>
      cases d.language with
      | none => exact steps
      | some language => exact Toml.tidy_leaf (Toml.rereads_text language) (by simp [Fresh]) steps

theorem toDocument_stepsTree (steps : List Step) (listings : Listings) :
    (stepsTree steps listings).toDocument =
      .list (List.zipWith Step.documentListing steps listings) := by
  have elements : elementDocuments (List.zipWith stepTree steps listings) =
      List.zipWith Step.documentListing steps listings := by
    induction steps generalizing listings with
    | nil => rfl
    | cons s steps ih =>
      cases listings with
      | nil => rfl
      | cons listing listings =>
        have arguments := Toml.entryDocuments_leaves Document.text listing
        rw [List.zipWith_cons_cons, elementDocuments, ih, List.zipWith_cons_cons,
          Step.documentListing, ← arguments]
        rfl
  rw [stepsTree]
  split
  case isTrue none =>
    rw [none]
    rfl
  case isFalse => exact congrArg Document.list elements

theorem entryDocuments_fileTree (d : Definition) (listings : Listings) :
    Document.table (entryDocuments (d.fileTree listings)) = d.fileDocumentListing listings := by
  rw [fileDocumentListing, ← toDocument_stepsTree, fileTree]
  cases d.language with
  | none => rfl
  | some language => rfl

/-! ## Reading documents -/

theorem ofDocument?_documentListing {s : Step} {arguments : List (String × String)}
    (same : arguments.Perm s.arguments.entries) :
    Step.ofDocument? (s.documentListing arguments) = some s := by
  have table : Document.table? Step.argumentText?
      (.table (arguments.map fun entry => (entry.1, .text entry.2))) = some s.arguments :=
    Document.table?_of_perm Document.text (fun _ => rfl) same
  have record : (s.documentListing arguments).record? Step.fields =
      some [some (.text s.tool),
        some (.table (arguments.map fun entry => (entry.1, .text entry.2)))] := rfl
  rw [Step.ofDocument?, record]
  dsimp only [Document.text?, Document.orDefault?]
  rw [table]

theorem list?_documentListing {steps : List Step} {listings : Listings}
    (listed : List.Forall₂ (fun s listing => listing.Perm s.arguments.entries) steps listings) :
    Document.list? Step.ofDocument? (.list (List.zipWith Step.documentListing steps listings)) =
      some steps := by
  induction listed with
  | nil => rfl
  | cons same _ ih =>
    rw [Document.list?] at ih ⊢
    rw [List.zipWith_cons_cons, Document.readAll?, ofDocument?_documentListing same]
    dsimp only
    rw [ih]
    rfl

/-- The document of a definition holds its parts. -/
theorem ofFileDocument?_listing {d : Definition} {listings : Listings}
    (listed : d.Listed listings) :
    ofFileDocument? (d.fileDocumentListing listings) = some d := by
  have steps := list?_documentListing listed
  have language : Document.orDefault? none (Document.optional? Document.text?)
      (d.language.map Document.text) = some d.language :=
    Document.orDefault?_optional (fun _ _ => rfl) fun _ _ => nofun
  have pipeline : (d.fileDocumentListing listings).record? [⟨"pipeline", .required⟩] =
      some [some (.table
        ([("name", .text d.name), ("description", .text d.description)] ++
          (d.language.map fun language => ("language", Document.text language)).toList ++
          [("steps", .list (List.zipWith Step.documentListing d.steps listings))]))] := rfl
  have record : (Document.table
      ([("name", .text d.name), ("description", .text d.description)] ++
        (d.language.map fun language => ("language", Document.text language)).toList ++
        [("steps", .list (List.zipWith Step.documentListing d.steps listings))])).record? fields =
      some [some (.text d.name), some (.text d.description), d.language.map Document.text,
        some (.list (List.zipWith Step.documentListing d.steps listings))] := by
    cases d.language with
    | none => rfl
    | some language => rfl
  rw [ofFileDocument?, pipeline]
  dsimp only
  rw [ofDocument?, record]
  simp only [Document.text?, Document.orDefault?_some, language, steps]

/-- A definition has no numbers that could be out of range. -/
theorem isWritable_listing (d : Definition) (listings : Listings) :
    Toml.isWritable (d.fileDocumentListing listings) = true := by
  have steps : Toml.areWritable (List.zipWith Step.documentListing d.steps listings) = true := by
    induction d.steps generalizing listings with
    | nil => rfl
    | cons s steps ih =>
      cases listings with
      | nil => rfl
      | cons listing listings =>
        have arguments := Toml.entriesWritable_map Document.text (fun _ => rfl) listing
        simp [Toml.areWritable, Step.documentListing, Toml.isWritable, Toml.entriesWritable,
          arguments, ih listings]
  obtain ⟨name, description, language, own⟩ := d
  cases language with
  | none => simp [fileDocumentListing, Toml.isWritable, Toml.entriesWritable, steps]
  | some language => simp [fileDocumentListing, Toml.isWritable, Toml.entriesWritable, steps]

/-- The text of a definition reads back, whatever the order of its arguments. -/
theorem read_listing {d : Definition} {listings : Listings} (listed : d.Listed listings) :
    read (Toml.write (d.fileDocumentListing listings)) = .ok d := by
  have document := Toml.read?_write (tidy_fileTree listed)
  rw [entryDocuments_fileTree] at document
  rw [read, document, Option.bind_some, ofFileDocument?_listing listed]

/-- The arguments in the order of their names are a listing. -/
theorem listed_entries (d : Definition) : d.Listed (d.steps.map fun s => s.arguments.entries) := by
  rw [Listed, List.forall₂_map_right_iff]
  exact List.forall₂_same.2 fun s _ => .refl _

end Definition

/-- **A definition that is written reads back as it was**, in whatever order the arguments of its
steps are written. -/
theorem definition_round_trip (d : Definition) :
    (∀ listings, d.Listed listings →
      ∃ text, Toml.write? (d.fileDocumentListing listings) = some text ∧
        Definition.read text = .ok d ∧
          (Definition.read text).map Definition.fault? = .ok d.fault?) ∧
      Toml.write? d.toFileDocument = some d.write ∧ Definition.read d.write = .ok d := by
  have listing : ∀ listings, d.Listed listings →
      ∃ text, Toml.write? (d.fileDocumentListing listings) = some text ∧
        Definition.read text = .ok d ∧
          (Definition.read text).map Definition.fault? = .ok d.fault? := by
    intro listings listed
    have reads := Definition.read_listing listed
    refine ⟨_, if_pos (d.isWritable_listing listings), reads, ?_⟩
    rw [reads]
    rfl
  have writable := d.isWritable_listing (d.steps.map fun s => s.arguments.entries)
  have reads := Definition.read_listing d.listed_entries
  rw [Definition.fileDocumentListing_entries] at writable reads
  exact ⟨listing, if_pos writable, reads⟩

/-- A definition whose texts and names need every form of quotation, some of them empty. -/
def Definition.troublesome : Definition where
  name := "it's \"quoted\" ''' and \"\"\""
  description := "\nC:\\tmp\r\n\t\x00\x7f é"
  language := none
  steps := [.ofTool "", ⟨"fxc", .ofList [("", "'"), ("a b", "\n")]⟩]

/-- The arguments of its second step may be written in reverse. -/
theorem definition_round_trip_troublesome :
    ∃ text, Toml.write? (Definition.troublesome.fileDocumentListing
        [[], [("a b", "\n"), ("", "'")]]) = some text ∧
      Definition.read text = .ok .troublesome ∧
        (Definition.read text).map Definition.fault? = .ok Definition.troublesome.fault? := by
  refine (definition_round_trip .troublesome).1 _ (.cons (.refl _) (.cons ?_ .nil))
  have distinct : ([("", "'"), ("a b", "\n")].map Prod.fst).Nodup := by decide
  exact (List.Perm.swap ..).trans (Table.ofList_perm distinct).symm

end ShaderChain
