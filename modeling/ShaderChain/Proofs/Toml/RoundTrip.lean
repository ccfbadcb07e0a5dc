import ShaderChain.Proofs.Toml.Assembly

/-!
# Documents read back

The text of a tidy tree consists of the lines of its blocks, and so it reads
back as this tree: `read?_write`. Every document that the library writes is that
of a tidy tree, provided that its tables do not repeat names and that the values
in their lines read back (`Rereads`).
-/

set_option autoImplicit false

namespace ShaderChain.Toml

open Node

/-! ## The text of a block -/

/-- The text of a block below a path. -/
def Block.text (path : List String) (b : Block) : String :=
  (if b.isElement then "[[" ++ pathText (path ++ b.path) ++ "]]\n"
    else "[" ++ pathText (path ++ b.path) ++ "]\n") ++
    String.join (b.pairs.map fun pair => pairText pair.1 pair.2)

theorem Block.text_under (path : List String) (name : String) (b : Block) :
    Block.text path (b.under name) = Block.text (path ++ [name]) b := by
  have same : path ++ (b.under name).path = path ++ [name] ++ b.path := by
    rw [List.append_assoc]
    rfl
  rw [Block.text, Block.text, same]
  rfl

theorem Block.map_text_under (path : List String) (name : String) (blocks : List Block) :
    (blocks.map (Block.under name)).map (Block.text path) =
      blocks.map (Block.text (path ++ [name])) := by
  rw [List.map_map]
  exact List.map_congr_left fun b _ => b.text_under path name

/-! ## The sections of a tree -/

theorem Rereads.noSection {value : Document} (rereads : Rereads value) (path : List String) :
    sectionsOf path value = [] := by
  have inLine := rereads.inLine ""
  cases value with
  | table entries => cases inLine
  | list items =>
    rw [sectionsOf]
    cases isArray : isArrayOfTables items with
    | false => rfl
    | true => simp [lineOf?, isArray] at inLine
  | _ => rfl

theorem isArrayOfTables_elementDocuments {tables : List Entries} (nonempty : tables ≠ []) :
    isArrayOfTables (elementDocuments tables) = true := by
  have all : (elementDocuments tables).all isTable = true := by
    clear nonempty
    induction tables with
    | nil => rfl
    | cons element rest ih => exact ih
  obtain ⟨element, rest, rfl⟩ := List.exists_cons_of_ne_nil nonempty
  exact all

/-- The lines under a header are those of the pairs. -/
theorem linesOf_entryDocuments {entries : Entries} (tidy : EntriesTidy entries) :
    linesOf (entryDocuments entries) =
      (pairsOf entries).map fun pair => pairText pair.1 pair.2 := by
  induction entries with
  | nil => rfl
  | cons entry rest ih =>
    obtain ⟨name, node⟩ := entry
    obtain ⟨own, -, -, later⟩ := tidy
    cases node with
    | leaf value =>
      have line : lineOf? (name, (leaf value).toDocument) = some (pairText name value) :=
        Rereads.inLine own name
      exact (List.filterMap_cons_some line).trans (congrArg _ (ih later))
    | table origin inner => exact (List.filterMap_cons_none rfl).trans (ih later)
    | elements tables =>
      have noLine : lineOf? (name, (elements tables).toDocument) = none :=
        if_pos (isArrayOfTables_elementDocuments own.1)
      exact (List.filterMap_cons_none noLine).trans (ih later)

/-- A tidy table has nothing to write only if it has no entries. -/
theorem isEmptyTable_entryDocuments {entries : Entries} (tidy : EntriesTidy entries) :
    isEmptyTable (entryDocuments entries) = entries.isEmpty := by
  cases entries with
  | nil => rfl
  | cons entry rest =>
    obtain ⟨name, node⟩ := entry
    cases node with
    | leaf value =>
      have inLine := Rereads.inLine tidy.1 name
      cases value with
      | null => cases inLine
      | _ => rfl
    | table origin inner => rfl
    | elements tables => rfl

mutual

theorem sectionsOf_toDocument : ∀ (node : Node) (path : List String) (name : String), Tidy node →
    sectionsOf (path ++ [name]) node.toDocument = (blocks name node).map (Block.text path)
  | leaf value, path, name, rereads => by
      rw [toDocument, Rereads.noSection rereads]
      rfl
  | table origin entries, path, name, ⟨same, tidy⟩ => by
      rw [toDocument, sectionsOf, blocks, List.map_append, Block.map_text_under,
        entrySections_entryDocuments entries _ tidy, linesOf_entryDocuments tidy,
        isEmptyTable_entryDocuments tidy, same, originOf]
      congr 1
      by_cases sectionsOnly : pairsOf entries = [] ∧ entries ≠ []
      · obtain ⟨noPairs, nonempty⟩ := sectionsOnly
        simp [noPairs, nonempty]
      · rw [if_neg sectionsOnly, if_pos rfl, if_neg (by simpa using sectionsOnly)]
        rfl
  | elements tables, path, name, ⟨nonempty, tidy⟩ => by
      rw [toDocument, sectionsOf, if_pos (isArrayOfTables_elementDocuments nonempty),
        elementSections_elementDocuments tables path name tidy, blocks]

theorem entrySections_entryDocuments : ∀ (entries : Entries) (path : List String),
    EntriesTidy entries →
      entrySections path (entryDocuments entries) = (entryBlocks entries).map (Block.text path)
  | [], _, _ => rfl
  | (name, node) :: rest, path, ⟨own, _, _, later⟩ => by
      rw [entryDocuments, entrySections, entryBlocks, List.map_append,
        sectionsOf_toDocument node path name own, entrySections_entryDocuments rest path later]

theorem elementSections_elementDocuments : ∀ (tables : List Entries) (path : List String)
    (name : String), ElementsTidy tables →
      elementSections (path ++ [name]) (elementDocuments tables) =
        (elementBlocks name tables).map (Block.text path)
  | [], _, _, _ => rfl
  | element :: rest, path, name, ⟨tidy, others⟩ => by
      rw [elementDocuments, elementSections, elementBlocks, List.map_cons, List.map_append,
        Block.map_text_under, entrySections_entryDocuments element _ tidy,
        elementSections_elementDocuments rest path name others, linesOf_entryDocuments tidy]
      rfl

end

/-! ## The lines of a text -/

theorem rereads_of_mem_pairsOf {entries : Entries} (tidy : EntriesTidy entries) :
    ∀ pair ∈ pairsOf entries, Rereads pair.2 := by
  induction entries with
  | nil => exact fun _ => nofun
  | cons entry rest ih =>
    obtain ⟨name, node⟩ := entry
    obtain ⟨own, -, -, later⟩ := tidy
    cases node with
    | leaf value => exact List.forall_mem_cons.2 ⟨own, ih later⟩
    | table origin inner => exact ih later
    | elements tables => exact ih later

theorem forall_mem_under {blocks : List Block}
    (all : ∀ b ∈ blocks, ∀ pair ∈ b.pairs, Rereads pair.2) (name : String) :
    ∀ b ∈ blocks.map (Block.under name), ∀ pair ∈ b.pairs, Rereads pair.2 := by
  intro b member
  obtain ⟨inner, there, rfl⟩ := List.mem_map.1 member
  exact all inner there

mutual

/-- The values in the lines of a tidy node read back. -/
theorem rereads_of_mem_blocks : ∀ (node : Node) (name : String), Tidy node →
    ∀ b ∈ blocks name node, ∀ pair ∈ b.pairs, Rereads pair.2
  | leaf value, name, _ => fun _ => nofun
  | table origin entries, name, ⟨_, tidy⟩ => by
      rw [blocks]
      refine List.forall_mem_append.2 ⟨?_, forall_mem_under (rereads_of_mem_entryBlocks _ tidy) name⟩
      split
      · exact List.forall_mem_singleton.2 (rereads_of_mem_pairsOf tidy)
      · exact fun _ => nofun
  | elements tables, name, ⟨_, tidy⟩ => rereads_of_mem_elementBlocks tables name tidy

theorem rereads_of_mem_entryBlocks : ∀ (entries : Entries), EntriesTidy entries →
    ∀ b ∈ entryBlocks entries, ∀ pair ∈ b.pairs, Rereads pair.2
  | [], _ => fun _ => nofun
  | (name, node) :: rest, ⟨own, _, _, later⟩ => by
      rw [entryBlocks]
      exact List.forall_mem_append.2
        ⟨rereads_of_mem_blocks node name own, rereads_of_mem_entryBlocks rest later⟩

theorem rereads_of_mem_elementBlocks : ∀ (tables : List Entries) (name : String),
    ElementsTidy tables → ∀ b ∈ elementBlocks name tables, ∀ pair ∈ b.pairs, Rereads pair.2
  | [], _, _ => fun _ => nofun
  | element :: rest, name, ⟨tidy, others⟩ => by
      rw [elementBlocks]
      refine List.forall_mem_cons.2 ⟨rereads_of_mem_pairsOf tidy, List.forall_mem_append.2 ⟨?_, ?_⟩⟩
      · exact forall_mem_under (rereads_of_mem_entryBlocks element tidy) name
      · exact rereads_of_mem_elementBlocks rest name others

end

theorem writes_pairs {pairs : List (String × Document)} (rereads : ∀ pair ∈ pairs, Rereads pair.2) :
    Writes (String.join (pairs.map fun pair => pairText pair.1 pair.2)).toList
      (pairs.map pairStatement) := by
  induction pairs with
  | nil => exact .done
  | cons pair pairs ih =>
    obtain ⟨first, others⟩ := List.forall_mem_cons.1 rereads
    have text : (String.join ((pair :: pairs).map fun pair => pairText pair.1 pair.2)).toList =
        pairLine pair.1 pair.2 ++
          '\n' :: (String.join (pairs.map fun pair => pairText pair.1 pair.2)).toList := by
      simp [pairText, pairLine, String.join_cons]
    rw [text, List.map_cons]
    exact .line (line_pair pair.1 first) (ih others)

theorem writes_block {b : Block} (nonempty : b.path ≠ [])
    (rereads : ∀ pair ∈ b.pairs, Rereads pair.2) : Writes (b.text []).toList b.statements := by
  have pairs := writes_pairs rereads
  rw [Block.text, Block.statements, Block.header, List.nil_append]
  cases b.isElement with
  | true =>
    have line := Writes.line (line_element nonempty) pairs
    simpa using line
  | false =>
    have line := Writes.line (line_header nonempty) pairs
    simpa using line

/-- Texts that consist of lines, with empty lines between them, consist of lines. -/
theorem writes_joined {parts : List (String × List Statement)}
    (writes : ∀ part ∈ parts, Writes part.1.toList part.2) :
    Writes (Text.joined "\n" (parts.map Prod.fst)).toList (parts.flatMap Prod.snd) := by
  induction parts with
  | nil => exact .done
  | cons part parts ih =>
    obtain ⟨first, others⟩ := List.forall_mem_cons.1 writes
    have later := ih others
    cases parts with
    | nil => simpa [Text.joined] using first
    | cons next parts =>
      have text : (Text.joined "\n" ((part :: next :: parts).map Prod.fst)).toList =
          part.1.toList ++ '\n' :: (Text.joined "\n" ((next :: parts).map Prod.fst)).toList := by
        simp [Text.joined]
      rw [text, List.flatMap_cons]
      exact first.append (.blank later)

/-- The text of a tidy tree consists of the lines of its pairs and blocks. -/
theorem writes_write {entries : Entries} (tidy : EntriesTidy entries) :
    Writes (write (.table (entryDocuments entries))).toList
      ((pairsOf entries).map pairStatement ++ (entryBlocks entries).flatMap Block.statements) := by
  let sections := (entryBlocks entries).map fun b => (b.text [], b.statements)
  have blocks : ∀ part ∈ sections, Writes part.1.toList part.2 := by
    intro part member
    obtain ⟨b, there, rfl⟩ := List.mem_map.1 member
    exact writes_block (path_ne_nil_of_mem_entryBlocks there)
      (rereads_of_mem_entryBlocks entries tidy b there)
  have texts : sections.map Prod.fst = entrySections [] (entryDocuments entries) := by
    rw [entrySections_entryDocuments entries [] tidy, List.map_map]
    rfl
  have statements : sections.flatMap Prod.snd = (entryBlocks entries).flatMap Block.statements :=
    List.flatMap_map ..
  have pairs := writes_pairs (rereads_of_mem_pairsOf tidy)
  rw [← linesOf_entryDocuments tidy] at pairs
  change Writes (Text.joined "\n" ((if (linesOf (entryDocuments entries)).isEmpty then []
    else [String.join (linesOf (entryDocuments entries))]) ++
      entrySections [] (entryDocuments entries))).toList _
  rw [← texts, ← statements]
  split
  case isTrue none =>
    have noPairs : pairsOf entries = [] := by
      rw [linesOf_entryDocuments tidy] at none
      simpa using none
    rw [noPairs]
    exact writes_joined blocks
  case isFalse =>
    have all : ∀ part ∈ (String.join (linesOf (entryDocuments entries)),
        (pairsOf entries).map pairStatement) :: sections, Writes part.1.toList part.2 :=
      List.forall_mem_cons.2 ⟨pairs, blocks⟩
    exact writes_joined all

/-- **The text of a tidy tree reads back as its document.** -/
theorem read?_write {entries : Entries} (tidy : EntriesTidy entries) :
    read? (write (.table (entryDocuments entries))) = some (.table (entryDocuments entries)) := by
  have writes := writes_write tidy
  have pairs : addPairs? [] (pairsOf entries) [] = some ((pairsOf entries).map ofPair) :=
    addPairs?_pairsOf tidy fun _ _ => List.not_mem_nil
  have sections := assembleBlocks?_entryBlocks entries tidy (apart_of_tidy tidy)
  rw [pairs_append_sections tidy] at sections
  rw [read?, writes.skipMark_eq, writes.statements?_eq (Nat.lt_succ_self _)]
  change assemble? _ = _
  rw [assemble?, assembleFrom?_pairs, pairs]
  change (assembleFrom? _ _ _).map _ = _
  rw [assembleFrom?_blocks, sections]
  rfl

/-! ## Tidy tables -/

/-- A pair may stand in front of anything. -/
theorem tidy_leaf {name : String} {value : Document} {rest : Entries} (rereads : Rereads value)
    (fresh : Fresh name rest) (later : EntriesTidy rest) :
    EntriesTidy ((name, leaf value) :: rest) := by
  refine ⟨rereads, fresh, ?_, later⟩
  intro isSection
  cases isSection

/-- A section may stand in front of sections. -/
theorem tidy_section {name : String} {node : Node} {rest : Entries} (own : Tidy node)
    (fresh : Fresh name rest) (noPairs : pairsOf rest = []) (later : EntriesTidy rest) :
    EntriesTidy ((name, node) :: rest) :=
  ⟨own, fresh, fun _ => noPairs, later⟩

theorem tidy_single {name : String} {node : Node} (own : Tidy node) :
    EntriesTidy [(name, node)] :=
  tidy_section own List.not_mem_nil rfl trivial

section

variable {α : Type} {value : α → Document}

theorem fresh_leaves {entries : List (String × α)} {name : String}
    (fresh : name ∉ entries.map Prod.fst) :
    Fresh name (entries.map fun entry => (entry.1, leaf (value entry.2))) := by
  rw [Fresh, List.map_map]
  exact fresh

theorem tidy_leaves (rereads : ∀ a, Rereads (value a)) {entries : List (String × α)}
    (distinct : (entries.map Prod.fst).Nodup) :
    EntriesTidy (entries.map fun entry => (entry.1, leaf (value entry.2))) := by
  induction entries with
  | nil => trivial
  | cons entry entries ih =>
    obtain ⟨fresh, later⟩ := List.nodup_cons.1 distinct
    exact tidy_leaf (rereads entry.2) (fresh_leaves fresh) (ih later)

variable (value)

theorem originOf_leaves (entries : List (String × α)) :
    originOf (entries.map fun entry => (entry.1, leaf (value entry.2))) = .explicit := by
  cases entries with
  | nil => rfl
  | cons entry entries => exact if_neg fun sectionsOnly => nomatch sectionsOnly.1

theorem entryDocuments_leaves (entries : List (String × α)) :
    entryDocuments (entries.map fun entry => (entry.1, leaf (value entry.2))) =
      entries.map fun entry => (entry.1, value entry.2) := by
  induction entries with
  | nil => rfl
  | cons entry entries ih => exact congrArg _ ih

theorem entriesWritable_map (writable : ∀ a, isWritable (value a) = true)
    (entries : List (String × α)) :
    entriesWritable (entries.map fun entry => (entry.1, value entry.2)) = true := by
  induction entries with
  | nil => rfl
  | cons entry entries ih =>
    rw [List.map_cons, entriesWritable, writable, ih]
    rfl

variable {value}

/-- A table of values under its own header is tidy. -/
theorem tidy_table (rereads : ∀ a, Rereads (value a)) {entries : List (String × α)}
    (distinct : (entries.map Prod.fst).Nodup) :
    Tidy (table .explicit (entries.map fun entry => (entry.1, leaf (value entry.2)))) :=
  ⟨(originOf_leaves value entries).symm, tidy_leaves rereads distinct⟩

end

/-! ## Entries that are left out -/

/-- Whether a document is `null`. -/
def isNull : Document → Bool
  | .null => true
  | _ => false

mutual

/-- The document without the entries that are `null`, in its tables and the tables in them. -/
def withoutNull : Document → Document
  | .table entries => .table (entriesWithoutNull entries)
  | d => d

/-- The entries without those that are `null`. -/
def entriesWithoutNull : List (String × Document) → List (String × Document)
  | [] => []
  | entry :: rest =>
    if isNull entry.2 then entriesWithoutNull rest
    else (entry.1, withoutNull entry.2) :: entriesWithoutNull rest

end

theorem lineOf?_withoutNull (name : String) (d : Document) :
    lineOf? (name, withoutNull d) = lineOf? (name, d) := by
  cases d with
  | table entries => rw [withoutNull]; rfl
  | _ => rfl

theorem lineOf?_of_isNull {name : String} {d : Document} (null : isNull d = true) :
    lineOf? (name, d) = none := by
  cases d with
  | null => rfl
  | _ => cases null

theorem sectionsOf_of_isNull {d : Document} (null : isNull d = true) (path : List String) :
    sectionsOf path d = [] := by
  cases d with
  | null => rfl
  | _ => cases null

theorem linesOf_entriesWithoutNull (entries : List (String × Document)) :
    linesOf (entriesWithoutNull entries) = linesOf entries := by
  induction entries with
  | nil => rfl
  | cons entry rest ih =>
    rw [linesOf] at ih ⊢
    rw [linesOf, entriesWithoutNull]
    by_cases null : isNull entry.2
    · rw [if_pos null, ih, List.filterMap_cons_none (lineOf?_of_isNull null)]
      rfl
    · rw [if_neg null, List.filterMap_cons, List.filterMap_cons, lineOf?_withoutNull, ih]
      rfl

theorem isNull_withoutNull (d : Document) : isNull (withoutNull d) = isNull d := by
  cases d with
  | table entries => rfl
  | _ => rfl

theorem isEmptyTable_cons (entry : String × Document) (rest : List (String × Document)) :
    isEmptyTable (entry :: rest) = (isNull entry.2 && isEmptyTable rest) := rfl

theorem isEmptyTable_entriesWithoutNull (entries : List (String × Document)) :
    isEmptyTable (entriesWithoutNull entries) = isEmptyTable entries := by
  induction entries with
  | nil => rfl
  | cons entry rest ih =>
    rw [entriesWithoutNull, isEmptyTable_cons]
    by_cases null : isNull entry.2
    · rw [if_pos null, ih, null, Bool.true_and]
    · rw [if_neg null, isEmptyTable_cons, isNull_withoutNull, ih]

mutual

theorem sectionsOf_withoutNull : ∀ (d : Document) (path : List String),
    sectionsOf path (withoutNull d) = sectionsOf path d
  | .table entries, path => by
      rw [withoutNull, sectionsOf, sectionsOf, linesOf_entriesWithoutNull,
        isEmptyTable_entriesWithoutNull, entrySections_entriesWithoutNull entries path]
  | .null, _ => rfl
  | .bool _, _ => rfl
  | .int _, _ => rfl
  | .real _, _ => rfl
  | .text _, _ => rfl
  | .list _, _ => rfl
  | .undefined, _ => rfl

theorem entrySections_entriesWithoutNull : ∀ (entries : List (String × Document))
    (path : List String),
    entrySections path (entriesWithoutNull entries) = entrySections path entries
  | [], _ => rfl
  | entry :: rest, path => by
      have later := entrySections_entriesWithoutNull rest path
      have own := sectionsOf_withoutNull entry.2 (path ++ [entry.1])
      rw [entriesWithoutNull, entrySections]
      by_cases null : isNull entry.2
      · rw [if_pos null, later, sectionsOf_of_isNull null, List.nil_append]
      · rw [if_neg null, entrySections, own, later]

end

/-- What is left out is not written. -/
theorem write_withoutNull (d : Document) : write (withoutNull d) = write d := by
  cases d with
  | table entries =>
    let textOf (lines sections : List String) : String :=
      Text.joined "\n" ((if lines.isEmpty then [] else [String.join lines]) ++ sections)
    have lines := linesOf_entriesWithoutNull entries
    have sections := entrySections_entriesWithoutNull entries []
    have same := congr (congrArg textOf lines) sections
    exact same
  | _ => rfl

theorem Rereads.isNull_eq {value : Document} (rereads : Rereads value) : isNull value = false := by
  have inLine := rereads.inLine ""
  cases value with
  | null => cases inLine
  | _ => rfl

theorem Rereads.withoutNull_eq {value : Document} (rereads : Rereads value) :
    withoutNull value = value := by
  have inLine := rereads.inLine ""
  cases value with
  | table entries => cases inLine
  | _ => rfl

/-- Of a table of values that read back nothing is left out. -/
theorem entriesWithoutNull_map {α : Type} {value : α → Document} (rereads : ∀ a, Rereads (value a))
    (entries : List (String × α)) :
    entriesWithoutNull (entries.map fun entry => (entry.1, value entry.2)) =
      entries.map fun entry => (entry.1, value entry.2) := by
  induction entries with
  | nil => rfl
  | cons entry entries ih =>
    have own := rereads entry.2
    simp only [List.map_cons, entriesWithoutNull, own.isNull_eq, own.withoutNull_eq, ih]
    rfl

/-- The text of a document that is a tidy tree but for what is left out reads back as the tree. -/
theorem read?_write_of_withoutNull {entries : Entries} {d : Document} (tidy : EntriesTidy entries)
    (same : withoutNull d = .table (entryDocuments entries)) :
    read? (write d) = some (.table (entryDocuments entries)) := by
  rw [← write_withoutNull, same, read?_write tidy]

/-! ## Entries that may be missing -/

/-- The entry of a value under a name, if there is a value. -/
def optionalEntry {α : Type} (name : String) (value : Option α) : List (String × α) :=
  (value.map fun a => (name, a)).toList

section

variable {α : Type} {value : Option α}

theorem tidy_optional_leaf {document : α → Document} {name : String} {rest : Entries}
    (rereads : ∀ a, Rereads (document a)) (fresh : Fresh name rest) (later : EntriesTidy rest) :
    EntriesTidy (optionalEntry name (value.map fun a => leaf (document a)) ++ rest) := by
  cases value with
  | none => exact later
  | some a => exact tidy_leaf (rereads a) fresh later

theorem tidy_optional_section {node : α → Node} {name : String} {rest : Entries}
    (own : ∀ a ∈ value, Tidy (node a)) (fresh : Fresh name rest) (noPairs : pairsOf rest = [])
    (later : EntriesTidy rest) : EntriesTidy (optionalEntry name (value.map node) ++ rest) := by
  cases value with
  | none => exact later
  | some a => exact tidy_section (own a rfl) fresh noPairs later

theorem entryDocuments_optional (node : α → Node) (name : String) (rest : Entries) :
    entryDocuments (optionalEntry name (value.map node) ++ rest) =
      optionalEntry name (value.map fun a => (node a).toDocument) ++ entryDocuments rest := by
  cases value with
  | none => rfl
  | some a => rfl

/-- An entry that is `null` where a value is missing is left out then. -/
theorem entriesWithoutNull_optional {write : α → Document}
    (some : ∀ a ∈ value, isNull (write a) = false) (name : String)
    (rest : List (String × Document)) :
    entriesWithoutNull ((name, (value.map write).getD .null) :: rest) =
      optionalEntry name (value.map fun a => withoutNull (write a)) ++ entriesWithoutNull rest := by
  cases value with
  | none => rfl
  | some a =>
    rw [entriesWithoutNull]
    exact if_neg (ne_true_of_eq_false (some a rfl))

end

end ShaderChain.Toml
