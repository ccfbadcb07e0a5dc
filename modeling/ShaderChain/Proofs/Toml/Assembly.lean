import ShaderChain.Proofs.Toml.Statement

/-!
# Trees from statements

The statements of a tree are grouped into blocks: the header of a table or of an
element, and the pairs that stand under it. The blocks of a tidy tree, in which
every table has its pairs in front and its names once, assemble to that tree
again (`assembleBlocks?_entryBlocks`).

Blocks below a name change only what stands under this name. `Frame` says so of
a place in the entries, the content of a table or of the last element of an
array, and everything about nested blocks follows from two frames.
-/

set_option autoImplicit false

namespace ShaderChain.Toml

/-- The entries of a table under construction. -/
abbrev Entries := List (String × Node)

namespace Node

variable {name : String} {before : Entries}

/-! ## Looking up and putting -/

/-- Whether no entry has the name. -/
def Fresh (name : String) (entries : Entries) : Prop := name ∉ entries.map Prod.fst

theorem Fresh.find?_eq (fresh : Fresh name before) : find? name before = none := by
  have none : before.find? (fun entry => entry.1 == name) = none := by
    refine List.find?_eq_none.2 fun entry member same => ?_
    exact fresh (List.mem_map.2 ⟨entry, member, by simpa using same⟩)
  rw [find?, none]
  rfl

theorem Fresh.find?_append (fresh : Fresh name before) (node : Node) :
    find? name (before ++ [(name, node)]) = some node := by
  induction before with
  | nil => simp [find?]
  | cons entry before ih =>
    obtain ⟨other, later⟩ := not_or.1 (fresh ∘ List.mem_cons.2)
    have next := ih later
    rw [find?] at next ⊢
    rw [List.cons_append, List.find?_cons_of_neg (by simpa using Ne.symm other)]
    exact next

theorem Fresh.put_eq (fresh : Fresh name before) (node : Node) :
    put name node before = before ++ [(name, node)] := by
  induction before with
  | nil => rfl
  | cons entry before ih =>
    obtain ⟨other, later⟩ := not_or.1 (fresh ∘ List.mem_cons.2)
    rw [put, if_neg (Ne.symm other), ih later, List.cons_append]

theorem Fresh.put_append (fresh : Fresh name before) (old node : Node) :
    put name node (before ++ [(name, old)]) = before ++ [(name, node)] := by
  induction before with
  | nil => simp [put]
  | cons entry before ih =>
    obtain ⟨other, later⟩ := not_or.1 (fresh ∘ List.mem_cons.2)
    rw [List.cons_append, put, if_neg (Ne.symm other), ih later, List.cons_append]

theorem changeLast?_append (change : Entries → Option Entries) (tables : List Entries)
    (last : Entries) :
    changeLast? change (tables ++ [last]) = (change last).map fun last => tables ++ [last] := by
  induction tables with
  | nil => rfl
  | cons table tables ih =>
    obtain ⟨next, later, more⟩ := List.exists_cons_of_ne_nil
      (List.append_ne_nil_of_right_ne_nil tables (List.cons_ne_nil last []))
    rw [List.cons_append, more, changeLast?, ← more, ih, Option.map_map]
    · rfl
    · exact nofun

/-! ## What a path leads to -/

/-- Applies a change to the entries that a path leads to. Tables that are missing on the way come
about as parts of headers do. -/
def reach? (change : Entries → Option Entries) (path : List String) (entries : Entries) :
    Option Entries :=
  changeAt? .implied (fun _ => change) path .explicit entries

theorem changeAt?_eq_reach? (change : Entries → Option Entries) (path : List String) (here : Origin)
    (entries : Entries) : changeAt? .implied (fun _ => change) path here entries =
      reach? change path entries := by
  cases path with
  | nil => rfl
  | cons name path => rw [reach?, changeAt?, changeAt?]

/-- A place in the entries that the name leads to. -/
def Frame (name : String) (place : Entries → Entries) : Prop :=
  ∀ change path inner,
    reach? change (name :: path) (place inner) = (reach? change path inner).map place

/-- The name of a table leads to its entries. -/
theorem frame_table (fresh : Fresh name before) (kind : Origin) :
    Frame name fun inner => before ++ [(name, .table kind inner)] := by
  intro change path inner
  rw [reach?, changeAt?, fresh.find?_append]
  dsimp only
  rw [if_neg (by simp), changeAt?_eq_reach?]
  exact congrArg (Option.map · _) (funext fun inner => fresh.put_append _ _)

/-- The name of an array leads to its last element. -/
theorem frame_last (fresh : Fresh name before) (tables : List Entries) :
    Frame name fun inner => before ++ [(name, .elements (tables ++ [inner]))] := by
  intro change path inner
  rw [reach?, changeAt?, fresh.find?_append]
  dsimp only
  rw [changeLast?_append, changeAt?_eq_reach?, Option.map_map]
  exact congrArg (Option.map · _) (funext fun inner => fresh.put_append _ _)

/-- A name that is not there comes about as that of a table. -/
theorem Fresh.reach?_eq (fresh : Fresh name before) (change : Entries → Option Entries)
    (path : List String) : reach? change (name :: path) before =
      (reach? change path []).map fun inner => before ++ [(name, .table .implied inner)] := by
  rw [reach?, changeAt?, fresh.find?_eq]
  dsimp only
  rw [changeAt?_eq_reach?]
  exact congrArg (Option.map · _) (funext fun inner => fresh.put_eq _)

end Node

open Node

/-! ## Blocks -/

/-- The header of a table or of an element, and the pairs that stand under it. -/
structure Block where
  isElement : Bool
  path : List String
  pairs : List (String × Document)

/-- The statement of a pair. -/
def pairStatement (pair : String × Document) : Statement := .pair [pair.1] pair.2

/-- Adds pairs to the entries that a path leads to. -/
def addPairs? (path : List String) : List (String × Document) → Entries → Option Entries
  | [], entries => some entries
  | pair :: rest, entries =>
    (reach? (addPair? [pair.1] pair.2) path entries).bind (addPairs? path rest)

namespace Block

/-- The statement of a block's header. -/
def header (b : Block) : Statement := if b.isElement then .element b.path else .header b.path

/-- The statements of a block. -/
def statements (b : Block) : List Statement := b.header :: b.pairs.map pairStatement

/-- The block below a name. -/
def under (name : String) (b : Block) : Block := { b with path := name :: b.path }

/-- Opens what a block is about. -/
def opening (b : Block) : String → Entries → Option Entries :=
  if b.isElement then openElement? else openTable?

/-- Adds a block to a tree. -/
def assemble? (b : Block) (entries : Entries) : Option Entries :=
  (openAt? b.opening b.path entries).bind (addPairs? b.path b.pairs)

end Block

/-- Adds blocks to a tree, one after the other. -/
def assembleBlocks? : List Block → Entries → Option Entries
  | [], entries => some entries
  | b :: rest, entries => (b.assemble? entries).bind (assembleBlocks? rest)

theorem assembleFrom?_pairs (path : List String) (pairs : List (String × Document))
    (later : List Statement) (entries : Entries) :
    assembleFrom? path entries (pairs.map pairStatement ++ later) =
      (addPairs? path pairs entries).bind fun entries => assembleFrom? path entries later := by
  induction pairs generalizing entries with
  | nil => rfl
  | cons pair pairs ih =>
    rw [List.map_cons, List.cons_append, addPairs?, Option.bind_assoc]
    exact Option.bind_congr fun entries _ => ih entries

/-- The statements of blocks are added to a tree block by block. -/
theorem assembleFrom?_blocks (current : List String) (blocks : List Block) (entries : Entries) :
    assembleFrom? current entries (blocks.flatMap Block.statements) =
      assembleBlocks? blocks entries := by
  induction blocks generalizing current entries with
  | nil => rfl
  | cons b blocks ih =>
    have first : assembleFrom? current entries (b.statements ++ blocks.flatMap Block.statements) =
        (openAt? b.opening b.path entries).bind fun entries =>
          assembleFrom? b.path entries (b.pairs.map pairStatement ++
            blocks.flatMap Block.statements) := by
      rw [Block.statements, List.cons_append, Block.header, Block.opening]
      cases b.isElement with
      | true => rfl
      | false => rfl
    rw [List.flatMap_cons, first, assembleBlocks?, Block.assemble?, Option.bind_assoc]
    refine Option.bind_congr fun entries _ => ?_
    rw [assembleFrom?_pairs]
    exact Option.bind_congr fun entries _ => ih b.path entries

/-! ## Blocks below a name -/

theorem openAt?_append (opening : String → Entries → Option Entries) (path : List String)
    (last : String) (entries : Entries) :
    openAt? opening (path ++ [last]) entries = reach? (opening last) path entries := by
  rw [openAt?, List.reverse_append, List.reverse_singleton, List.singleton_append]
  dsimp only
  rw [List.reverse_reverse]
  rfl

section Frames

variable {name : String} {place : Entries → Entries} (frame : Frame name place)
include frame

theorem Node.Frame.openAt?_eq (opening : String → Entries → Option Entries) {path : List String}
    (nonempty : path ≠ []) (inner : Entries) :
    openAt? opening (name :: path) (place inner) = (openAt? opening path inner).map place := by
  obtain ⟨before, last, rfl⟩ := (List.eq_nil_or_concat path).resolve_left nonempty
  rw [List.concat_eq_append, ← List.cons_append, openAt?_append, openAt?_append, frame]

theorem Node.Frame.addPairs?_eq (path : List String) (pairs : List (String × Document))
    (inner : Entries) :
    addPairs? (name :: path) pairs (place inner) = (addPairs? path pairs inner).map place := by
  induction pairs generalizing inner with
  | nil => rfl
  | cons pair pairs ih =>
    rw [addPairs?, addPairs?, frame, Option.map_bind, Option.bind_map]
    exact Option.bind_congr fun inner _ => ih inner

theorem Node.Frame.assemble?_eq {b : Block} (nonempty : b.path ≠ []) (inner : Entries) :
    (b.under name).assemble? (place inner) = (b.assemble? inner).map place := by
  rw [Block.assemble?, Block.assemble?, Option.map_bind]
  change (openAt? b.opening (name :: b.path) (place inner)).bind _ = _
  rw [frame.openAt?_eq b.opening nonempty, Option.bind_map]
  exact Option.bind_congr fun inner _ => frame.addPairs?_eq b.path b.pairs inner

/-- Blocks below a name change what stands in its place as they change entries by themselves. -/
theorem Node.Frame.assembleBlocks?_eq {blocks : List Block} (nonempty : ∀ b ∈ blocks, b.path ≠ [])
    (inner : Entries) :
    assembleBlocks? (blocks.map (Block.under name)) (place inner) =
      (assembleBlocks? blocks inner).map place := by
  induction blocks generalizing inner with
  | nil => rfl
  | cons b blocks ih =>
    obtain ⟨first, others⟩ := List.forall_mem_cons.1 nonempty
    rw [List.map_cons, assembleBlocks?, assembleBlocks?, frame.assemble?_eq first, Option.map_bind,
      Option.bind_map]
    exact Option.bind_congr fun inner _ => ih others inner

end Frames

/-- Blocks below a name that is not there yet make it that of a table. -/
theorem Node.Fresh.assembleBlocks?_eq {name : String} {before : Entries} (fresh : Fresh name before)
    {blocks : List Block} (some : blocks ≠ []) (nonempty : ∀ b ∈ blocks, b.path ≠ []) :
    assembleBlocks? (blocks.map (Block.under name)) before =
      (assembleBlocks? blocks []).map fun inner => before ++ [(name, .table .implied inner)] := by
  obtain ⟨b, blocks, rfl⟩ := List.exists_cons_of_ne_nil some
  obtain ⟨first, others⟩ := List.forall_mem_cons.1 nonempty
  have frame := frame_table fresh .implied
  have opens : openAt? b.opening (name :: b.path) before =
      (openAt? b.opening b.path []).map fun inner => before ++ [(name, .table .implied inner)] := by
    obtain ⟨path, last, same⟩ := (List.eq_nil_or_concat b.path).resolve_left first
    rw [same, List.concat_eq_append, ← List.cons_append, openAt?_append, openAt?_append,
      fresh.reach?_eq]
  rw [List.map_cons, assembleBlocks?, assembleBlocks?, Block.assemble?, Block.assemble?]
  change ((openAt? b.opening (name :: b.path) before).bind
    (addPairs? (name :: b.path) b.pairs)).bind _ = _
  rw [opens, Option.bind_map, Option.bind_assoc, Option.bind_assoc, Option.map_bind]
  refine Option.bind_congr fun inner _ => ?_
  rw [Function.comp_apply, frame.addPairs?_eq, Option.bind_map, Function.comp_apply,
    Option.map_bind]
  exact Option.bind_congr fun inner _ => frame.assembleBlocks?_eq others inner

/-! ## The blocks of a tree -/

namespace Node

/-- Whether the node is written in a section of its own. -/
def isSection : Node → Bool
  | leaf _ => false
  | _ => true

/-- The pairs that stand under the header of a table. -/
def pairsOf : Entries → List (String × Document)
  | [] => []
  | (key, leaf value) :: rest => (key, value) :: pairsOf rest
  | _ :: rest => pairsOf rest

/-- The entry of a pair. -/
def ofPair (pair : String × Document) : String × Node := (pair.1, leaf pair.2)

/-- How a table comes about when it is written: it has a header of its own unless it holds sections
only. -/
def originOf (entries : Entries) : Origin :=
  if pairsOf entries = [] ∧ entries ≠ [] then .implied else .explicit

mutual

/-- The blocks of a node under a name. -/
def blocks (name : String) : Node → List Block
  | leaf _ => []
  | table origin entries =>
    (if origin = .explicit then [⟨false, [name], pairsOf entries⟩] else []) ++
      (entryBlocks entries).map (Block.under name)
  | elements tables => elementBlocks name tables

/-- The blocks of the entries of a table. -/
def entryBlocks : Entries → List Block
  | [] => []
  | entry :: rest => blocks entry.1 entry.2 ++ entryBlocks rest

/-- The blocks of the elements of an array. -/
def elementBlocks (name : String) : List Entries → List Block
  | [] => []
  | element :: rest =>
    ⟨true, [name], pairsOf element⟩ ::
      ((entryBlocks element).map (Block.under name) ++ elementBlocks name rest)

end

mutual

/-- Whether a tree is as it is written: a leaf holds what reads back in its line, an array has
elements, and a table has a header where one is written for it. -/
def Tidy : Node → Prop
  | leaf value => Rereads value
  | table origin entries => origin = originOf entries ∧ EntriesTidy entries
  | elements tables => tables ≠ [] ∧ ElementsTidy tables

/-- Whether the entries of a table are as they are written: their names distinct, and the pairs in
front of the sections. -/
def EntriesTidy : Entries → Prop
  | [] => True
  | entry :: rest =>
    Tidy entry.2 ∧ Fresh entry.1 rest ∧ (entry.2.isSection = true → pairsOf rest = []) ∧
      EntriesTidy rest

/-- Whether the elements of an array are as they are written. -/
def ElementsTidy : List Entries → Prop
  | [] => True
  | element :: rest => EntriesTidy element ∧ ElementsTidy rest

end

theorem path_ne_nil_of_mem_blocks {name : String} {node : Node} {b : Block}
    (member : b ∈ blocks name node) : b.path ≠ [] := by
  have under {inner : List Block} (member : b ∈ inner.map (Block.under name)) : b.path ≠ [] := by
    obtain ⟨below, -, rfl⟩ := List.mem_map.1 member
    exact List.cons_ne_nil _ _
  cases node with
  | leaf value => cases member
  | table origin entries =>
    rw [blocks] at member
    rcases List.mem_append.1 member with own | below
    · split at own
      · exact List.mem_singleton.1 own ▸ List.cons_ne_nil _ _
      · cases own
    · exact under below
  | elements tables =>
    rw [blocks] at member
    induction tables with
    | nil => cases member
    | cons element rest ih =>
      rw [elementBlocks] at member
      rcases List.mem_cons.1 member with same | later
      · exact same ▸ List.cons_ne_nil _ _
      · exact (List.mem_append.1 later).elim under ih

theorem path_ne_nil_of_mem_entryBlocks {entries : Entries} {b : Block}
    (member : b ∈ entryBlocks entries) : b.path ≠ [] := by
  induction entries with
  | nil => cases member
  | cons entry rest ih =>
    rw [entryBlocks] at member
    exact (List.mem_append.1 member).elim path_ne_nil_of_mem_blocks ih

/-- The sections among some entries. -/
def sectionsAmong (entries : Entries) : Entries := entries.filter fun entry => entry.2.isSection

/-- Behind a section there are sections only. -/
theorem sectionsAmong_of_noPairs {entries : Entries} (noPairs : pairsOf entries = []) :
    sectionsAmong entries = entries := by
  induction entries with
  | nil => rfl
  | cons entry rest ih =>
    obtain ⟨name, node⟩ := entry
    cases node with
    | leaf value => cases noPairs
    | table origin inner => exact congrArg _ (ih noPairs)
    | elements tables => exact congrArg _ (ih noPairs)

/-- A tidy table has its pairs in front of its sections. -/
theorem pairs_append_sections {entries : Entries} (tidy : EntriesTidy entries) :
    (pairsOf entries).map ofPair ++ sectionsAmong entries = entries := by
  induction entries with
  | nil => rfl
  | cons entry rest ih =>
    obtain ⟨name, node⟩ := entry
    obtain ⟨-, -, pairsFirst, later⟩ := tidy
    cases node with
    | leaf value => exact congrArg _ (ih later)
    | table origin inner =>
      have noPairs : pairsOf rest = [] := pairsFirst rfl
      rw [pairsOf, noPairs]
      · exact sectionsAmong_of_noPairs noPairs
      · exact nofun
    | elements tables =>
      have noPairs : pairsOf rest = [] := pairsFirst rfl
      rw [pairsOf, noPairs]
      · exact sectionsAmong_of_noPairs noPairs
      · exact nofun

theorem nodup_of_tidy {entries : Entries} (tidy : EntriesTidy entries) :
    (entries.map Prod.fst).Nodup := by
  induction entries with
  | nil => exact List.nodup_nil
  | cons entry rest ih =>
    obtain ⟨-, fresh, -, later⟩ := tidy
    exact List.nodup_cons.2 ⟨fresh, ih later⟩

/-! ## Blocks assemble to their tree -/

/-- None of the names of some entries is among those of others. -/
def Apart (entries before : Entries) : Prop := ∀ entry ∈ entries, Fresh entry.1 before

theorem Apart.cons {entry : String × Node} {rest before : Entries}
    (apart : Apart (entry :: rest) before) (fresh : Fresh entry.1 rest) (added : String × Node)
    (same : added.1 = entry.1) : Apart rest (before ++ [added]) := by
  intro later member there
  rw [List.map_append, List.mem_append, List.map_singleton, List.mem_singleton] at there
  rcases there with early | last
  · exact apart later (List.mem_cons_of_mem _ member) early
  · exact fresh (List.mem_map.2 ⟨later, member, last.trans same⟩)

/-- The pairs of a tidy table and its sections have distinct names. -/
theorem apart_of_tidy {entries : Entries} (tidy : EntriesTidy entries) :
    Apart (sectionsAmong entries) ((pairsOf entries).map ofPair) := by
  have distinct := nodup_of_tidy tidy
  rw [← pairs_append_sections tidy, List.map_append] at distinct
  intro entry member there
  exact (List.nodup_append.1 distinct).2.2 _ there _ (List.mem_map_of_mem member) rfl

theorem addPair?_of_fresh {key : String} {before : Entries} (fresh : Fresh key before)
    (value : Document) : addPair? [key] value before = some (before ++ [ofPair (key, value)]) := by
  change (if (decide (Origin.explicit = .dotted) == true) = true then none
    else if (find? key before).isSome = true then none else _) = _
  rw [fresh.find?_eq]
  rfl

/-- Pairs with distinct names are added as they are. -/
theorem addPairs?_pairsOf {entries before : Entries} (tidy : EntriesTidy entries)
    (apart : Apart entries before) :
    addPairs? [] (pairsOf entries) before = some (before ++ (pairsOf entries).map ofPair) := by
  induction entries generalizing before with
  | nil => exact congrArg some (List.append_nil before).symm
  | cons entry rest ih =>
    obtain ⟨name, node⟩ := entry
    obtain ⟨-, fresh, -, later⟩ := tidy
    cases node with
    | leaf value =>
      have next := ih later (apart.cons fresh (ofPair (name, value)) rfl)
      rw [List.append_assoc] at next
      rw [pairsOf, addPairs?]
      change (addPair? [name] value before).bind (addPairs? [] (pairsOf rest)) = _
      rw [addPair?_of_fresh (apart _ List.mem_cons_self)]
      exact next
    | table origin inner =>
      exact ih later fun entry member => apart entry (List.mem_cons_of_mem _ member)
    | elements tables =>
      exact ih later fun entry member => apart entry (List.mem_cons_of_mem _ member)

theorem assembleBlocks?_append (first second : List Block) (entries : Entries) :
    assembleBlocks? (first ++ second) entries =
      (assembleBlocks? first entries).bind (assembleBlocks? second) := by
  induction first generalizing entries with
  | nil => rfl
  | cons b first ih =>
    rw [List.cons_append, assembleBlocks?, assembleBlocks?, Option.bind_assoc]
    exact Option.bind_congr fun entries _ => ih entries

/-- An opened table takes its pairs, and then its sections. -/
theorem Frame.fill {name : String} {place : Entries → Entries} (frame : Frame name place)
    {entries : Entries} (tidy : EntriesTidy entries)
    (sections : assembleBlocks? (entryBlocks entries) ((pairsOf entries).map ofPair) =
      some entries) :
    (addPairs? [name] (pairsOf entries) (place [])).bind
      (assembleBlocks? ((entryBlocks entries).map (Block.under name))) = some (place entries) := by
  have pairs : addPairs? [] (pairsOf entries) [] = some ((pairsOf entries).map ofPair) :=
    addPairs?_pairsOf tidy fun _ _ => List.not_mem_nil
  rw [frame.addPairs?_eq, pairs]
  change assembleBlocks? _ (place _) = _
  rw [frame.assembleBlocks?_eq fun b => path_ne_nil_of_mem_entryBlocks, sections]
  rfl

theorem openTable?_of_fresh {name : String} {before : Entries} (fresh : Fresh name before) :
    openTable? name before = some (before ++ [(name, .table .explicit [])]) := by
  rw [openTable?, fresh.find?_eq]

/-- An array under construction; it comes about with its first element. -/
def arrayAt (name : String) (before : Entries) (tables : List Entries) : Entries :=
  if tables.isEmpty then before else before ++ [(name, .elements tables)]

theorem arrayAt_nil (name : String) (before : Entries) : arrayAt name before [] = before := rfl

theorem arrayAt_append (name : String) (before : Entries) (tables : List Entries) (last : Entries) :
    arrayAt name before (tables ++ [last]) = before ++ [(name, .elements (tables ++ [last]))] := by
  rw [arrayAt, if_neg (by simp)]

theorem openElement?_arrayAt {name : String} {before : Entries} (fresh : Fresh name before)
    (tables : List Entries) :
    openElement? name (arrayAt name before tables) =
      some (arrayAt name before (tables ++ [[]])) := by
  rw [arrayAt_append, arrayAt]
  split
  case isTrue none =>
    rw [List.isEmpty_iff.1 none, openElement?, fresh.find?_eq]
    rfl
  case isFalse =>
    rw [openElement?, fresh.find?_append]
    exact congrArg some (fresh.put_append _ _)

mutual

/-- The blocks of a tidy section add it behind entries with other names. -/
theorem assembleBlocks?_blocks : ∀ (node : Node) {name : String} {before : Entries}, Tidy node →
    node.isSection = true → Fresh name before →
      assembleBlocks? (blocks name node) before = some (before ++ [(name, node)])
  | leaf _, _, _, _, isSection, _ => nomatch isSection
  | table origin entries, name, before, tidy, _, fresh => by
      obtain ⟨same, tidy⟩ := tidy
      have sections := assembleBlocks?_entryBlocks entries tidy (apart_of_tidy tidy)
      rw [pairs_append_sections tidy] at sections
      rw [blocks, same, originOf]
      split
      case isTrue sectionsOnly =>
        obtain ⟨noPairs, nonempty⟩ := sectionsOnly
        rw [noPairs, List.map_nil] at sections
        have some : entryBlocks entries ≠ [] := by
          intro none
          rw [none] at sections
          exact nonempty (Option.some.inj sections).symm
        rw [if_neg nofun, List.nil_append,
          fresh.assembleBlocks?_eq some fun b => path_ne_nil_of_mem_entryBlocks, sections]
        rfl
      case isFalse =>
        rw [if_pos rfl, List.singleton_append, assembleBlocks?, Block.assemble?]
        change ((openTable? name before).bind (addPairs? [name] (pairsOf entries))).bind _ = _
        rw [openTable?_of_fresh fresh]
        exact (frame_table fresh .explicit).fill tidy sections
  | elements tables, name, before, tidy, _, fresh => by
      have all := assembleBlocks?_elementBlocks tables [] tidy.2 fresh
      rw [List.nil_append, arrayAt_nil, arrayAt, if_neg (by simpa using tidy.1)] at all
      rw [blocks, all]

/-- The blocks of a tidy table add its sections. -/
theorem assembleBlocks?_entryBlocks : ∀ (entries : Entries) {before : Entries},
    EntriesTidy entries → Apart (sectionsAmong entries) before →
      assembleBlocks? (entryBlocks entries) before = some (before ++ sectionsAmong entries)
  | [], before, _, _ => congrArg some (List.append_nil before).symm
  | (name, node) :: rest, before, tidy, apart => by
      obtain ⟨own, fresh, -, later⟩ := tidy
      rw [entryBlocks, assembleBlocks?_append]
      cases isSection : node.isSection with
      | false =>
        have noBlocks : blocks name node = [] := by
          cases node with
          | leaf value => rfl
          | table origin inner => cases isSection
          | elements tables => cases isSection
        have same : sectionsAmong ((name, node) :: rest) = sectionsAmong rest :=
          List.filter_cons_of_neg (by simp [isSection])
        rw [same] at apart ⊢
        rw [noBlocks]
        exact assembleBlocks?_entryBlocks rest later apart
      | true =>
        have same : sectionsAmong ((name, node) :: rest) = (name, node) :: sectionsAmong rest :=
          List.filter_cons_of_pos isSection
        rw [same] at apart ⊢
        have freshAmong : Fresh name (sectionsAmong rest) := by
          intro there
          obtain ⟨entry, member, is⟩ := List.mem_map.1 there
          exact fresh (List.mem_map.2 ⟨entry, (List.mem_filter.1 member).1, is⟩)
        have next := assembleBlocks?_entryBlocks rest later
          (apart.cons freshAmong (name, node) rfl)
        rw [List.append_assoc] at next
        rw [assembleBlocks?_blocks node own isSection (apart _ List.mem_cons_self)]
        exact next

/-- The blocks of tidy elements add them to the array. -/
theorem assembleBlocks?_elementBlocks : ∀ (tables : List Entries) {name : String} {before : Entries}
    (done : List Entries), ElementsTidy tables → Fresh name before →
      assembleBlocks? (elementBlocks name tables) (arrayAt name before done) =
        some (arrayAt name before (done ++ tables))
  | [], name, before, done, _, _ => by
      rw [List.append_nil]
      rfl
  | element :: rest, name, before, done, tidy, fresh => by
      obtain ⟨tidy, others⟩ := tidy
      have sections := assembleBlocks?_entryBlocks element tidy (apart_of_tidy tidy)
      rw [pairs_append_sections tidy] at sections
      have filled := (frame_last fresh done).fill tidy sections
      have next := assembleBlocks?_elementBlocks rest (done ++ [element]) others fresh
      rw [arrayAt_append, List.append_assoc] at next
      rw [elementBlocks, assembleBlocks?, Block.assemble?]
      change ((openElement? name (arrayAt name before done)).bind
        (addPairs? [name] (pairsOf element))).bind _ = _
      rw [openElement?_arrayAt fresh, arrayAt_append, funext (assembleBlocks?_append _ _),
        ← Option.bind_assoc]
      change Option.bind ((addPairs? _ _ _).bind _) _ = _
      rw [filled]
      exact next

end

end Node

end ShaderChain.Toml
