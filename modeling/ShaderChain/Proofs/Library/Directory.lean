import ShaderChain.Machine.Launch
import ShaderChain.Proofs.Host
import ShaderChain.Proofs.Library.Record
import ShaderChain.Proofs.Path
import ShaderChain.Proofs.Text.Utf8

/-!
# The library of a directory

A directory shows a host its names, in some order, and for each name of a file
what reading the file gives (`Host.Shows`); a directory of a machine does, if no
name in it has a slash (`Machine.shows_of_list`). The library loaded from it and
the events of the loading are determined by what the directory holds:
`Library.Faithful` says which definitions the library has, where they come from,
and which events there are about each file. The order of the names does not
matter, and neither does an unusable file, apart from the event about it
(`library_faithful`).

The files are read in the order of their names (`Library.inOrder`); what is said
about a whole loading rests on the record that the library keeps of readings in
any order.
-/

set_option autoImplicit false

namespace ShaderChain

/-- A name in a directory, with what reading gives if it is the name of a file. -/
abbrev DirectoryEntry := String × Option (Except IoError Bytes)

/-- Whether a directory shows certain names in this order and can be looked at without being
changed. The names of a directory are distinct and have no slashes. -/
structure Host.Shows {σ : Type} (host : Host (StateM σ)) (s : σ) (dir : Path)
    (listing : List DirectoryEntry) : Prop where
  names : (host.list dir).run s = (.ok (listing.map Prod.fst), s)
  files : ∀ entry ∈ listing, (host.isFile (dir.child entry.1)).run s = (entry.2.isSome, s)
  contents : ∀ entry ∈ listing, ∀ content, entry.2 = some content →
    (host.read (dir.child entry.1)).run s = (content, s)
  distinct : (listing.map Prod.fst).Nodup
  plain : ∀ entry ∈ listing, '/' ∉ entry.1.toList

namespace Library

/-- Whether an entry is a file that should hold a definition. -/
def Candidate (dir : Path) (entry : DirectoryEntry) : Prop :=
  entry.2.isSome = true ∧ (dir.child entry.1).extension? = some "toml"

/-- Whether an entry is a file that holds a definition without faults. -/
def Declares (dir : Path) (entry : DirectoryEntry) (d : Definition) : Prop :=
  (dir.child entry.1).extension? = some "toml" ∧
    ∃ bytes text, entry.2 = some (.ok bytes) ∧ Text.decode? bytes = some text ∧
      Definition.read text = .ok d ∧ d.fault? = none

/-- **A library and its events tell what a directory holds.** -/
structure Faithful (dir : Path) (listing : List DirectoryEntry) (l : Library)
    (told : List LoadEvent) : Prop where
  /-- The names are those that files declare. -/
  declared : ∀ name, name ∈ l.names ↔ ∃ entry ∈ listing, ∃ d, Declares dir entry d ∧ d.name = name
  /-- Under a name is the definition of the greatest file that declares it. -/
  greatest : ∀ name stored, l.get? name = some stored ↔
    ∃ entry ∈ listing, Declares dir entry stored.definition ∧ stored.definition.name = name ∧
      stored.path = dir.child entry.1 ∧
      ∀ other ∈ listing, ∀ d, Declares dir other d → d.name = name → other.1 ≤ entry.1
  /-- The names are in strictly increasing order, and each has an entry. -/
  increasing : l.names.Pairwise (· < ·) ∧ ∀ name, name ∈ l.names ↔ (l.get? name).isSome = true
  /-- What is stored has no fault and its own name. -/
  sound : ∀ name stored, l.get? name = some stored →
    stored.definition.fault? = none ∧ stored.definition.name = name
  /-- A file that is not usable is skipped, and that is all. -/
  invalid : ∀ entry ∈ listing, Candidate dir entry → (∀ d, ¬ Declares dir entry d) →
    ∃ fault, told.filter (·.path == dir.child entry.1) =
      [.skipped (dir.child entry.1) (.unusable fault)]
  /-- A file whose definition stays in the library is loaded, and that is all. -/
  kept : ∀ entry ∈ listing, ∀ d, Declares dir entry d →
    l.get? d.name = some ⟨d, dir.child entry.1⟩ →
      told.filter (·.path == dir.child entry.1) = [.loaded d.name (dir.child entry.1)]
  /-- A file whose definition does not stay is loaded and then replaced, and that is all. -/
  replaced : ∀ entry ∈ listing, ∀ d, Declares dir entry d →
    l.get? d.name ≠ some ⟨d, dir.child entry.1⟩ →
      ∃ next, told.filter (·.path == dir.child entry.1) =
        [.loaded d.name (dir.child entry.1),
          .skipped (dir.child entry.1) (.redefined d.name next)]
  /-- Every event is about a candidate. -/
  known : ∀ event ∈ told, ∃ entry ∈ listing, Candidate dir entry ∧ event.path = dir.child entry.1
  /-- Each loaded definition is there, or was replaced. -/
  balance : told.countP (·.isLoaded) = l.size + told.countP (·.isReplacement)

/-! ## Reading a directory -/

/-- The definition in a file with some content, which may have faults. -/
def definitionOf (path : Path) (content : Except IoError Bytes) :
    Except DefinitionFault Definition :=
  match Host.textOf content with
  | .error cause => .error (.unreadable path cause)
  | .ok text => Definition.read text

/-- What is read from a file with some content. -/
def content (path : Path) (content : Except IoError Bytes) : Except DefinitionFault Definition :=
  definitionOf path content >>= Definition.usable

/-- The reading of an entry, if it is a candidate. -/
def reading? (dir : Path) (entry : DirectoryEntry) : Option Reading :=
  if (dir.child entry.1).extension? == some "toml" then
    entry.2.map fun read => (dir.child entry.1, content (dir.child entry.1) read)
  else none

/-- The entries in the order of their names. -/
def inOrder (listing : List DirectoryEntry) : List DirectoryEntry :=
  listing.mergeSort fun a b => decide (a.1 ≤ b.1)

/-- The readings of a directory. -/
def readings (dir : Path) (listing : List DirectoryEntry) : List Reading :=
  (inOrder listing).filterMap (reading? dir)

theorem path_of_reading? {dir : Path} {entry : DirectoryEntry} {reading : Reading}
    (read : reading? dir entry = some reading) : reading.1 = dir.child entry.1 := by
  rw [reading?] at read
  split at read
  case isTrue =>
    obtain ⟨_, _, rfl⟩ := Option.map_eq_some_iff.1 read
    rfl
  case isFalse => contradiction

theorem candidate_iff {dir : Path} {entry : DirectoryEntry} :
    Candidate dir entry ↔ ∃ result, reading? dir entry = some (dir.child entry.1, result) := by
  rw [Candidate, reading?]
  constructor
  · rintro ⟨file, extension⟩
    obtain ⟨read, some⟩ := Option.isSome_iff_exists.1 file
    rw [extension, some]
    exact ⟨_, rfl⟩
  · rintro ⟨result, read⟩
    split at read
    case isTrue extension =>
      obtain ⟨content, some, _⟩ := Option.map_eq_some_iff.1 read
      exact ⟨some ▸ rfl, beq_iff_eq.1 extension⟩
    case isFalse => contradiction

theorem bind_usable_eq_ok_iff {parsed : Except DefinitionFault Definition} {d : Definition} :
    parsed >>= Definition.usable = .ok d ↔ parsed = .ok d ∧ d.fault? = none := by
  cases parsed with
  | error fault => exact ⟨nofun, nofun⟩
  | ok other =>
    change other.usable = .ok d ↔ _
    rw [Definition.usable]
    cases fault : other.fault? with
    | some found =>
      refine ⟨nofun, fun usable => ?_⟩
      cases usable.1
      rw [fault] at usable
      exact nomatch usable.2
    | none =>
      refine ⟨fun same => ?_, And.left⟩
      cases same
      exact ⟨rfl, fault⟩

theorem definitionOf_eq_ok_iff {path : Path} {read : Except IoError Bytes} {d : Definition} :
    definitionOf path read = .ok d ↔
      ∃ text, Host.textOf read = .ok text ∧ Definition.read text = .ok d := by
  rw [definitionOf]
  cases Host.textOf read with
  | error cause => exact ⟨nofun, nofun⟩
  | ok text => simp

theorem content_eq_ok_iff {path : Path} {read : Except IoError Bytes} {d : Definition} :
    content path read = .ok d ↔ ∃ bytes text, read = .ok bytes ∧ Text.decode? bytes = some text ∧
      Definition.read text = .ok d ∧ d.fault? = none := by
  rw [content, bind_usable_eq_ok_iff, definitionOf_eq_ok_iff]
  constructor
  · rintro ⟨⟨text, found, parsed⟩, sound⟩
    obtain ⟨bytes, some, decoded⟩ := Host.textOf_eq_ok_iff.1 found
    exact ⟨bytes, text, some, decoded, parsed, sound⟩
  · rintro ⟨bytes, text, some, decoded, parsed, sound⟩
    exact ⟨⟨text, Host.textOf_eq_ok_iff.2 ⟨bytes, some, decoded⟩, parsed⟩, sound⟩

theorem declares_iff {dir : Path} {entry : DirectoryEntry} {d : Definition} :
    Declares dir entry d ↔ reading? dir entry = some (dir.child entry.1, .ok d) := by
  rw [Declares, reading?]
  constructor
  · rintro ⟨extension, bytes, text, file, usable⟩
    rw [extension, file, if_pos (beq_self_eq_true _), Option.map_some,
      content_eq_ok_iff.2 ⟨bytes, text, rfl, usable⟩]
  · intro read
    split at read
    case isTrue extension =>
      obtain ⟨file, some, same⟩ := Option.map_eq_some_iff.1 read
      obtain ⟨bytes, text, rfl, usable⟩ := content_eq_ok_iff.1 (Prod.mk.inj same).2
      exact ⟨beq_iff_eq.1 extension, bytes, text, some, usable⟩
    case isFalse => contradiction

theorem mem_readings_iff {dir : Path} {listing : List DirectoryEntry} {reading : Reading} :
    reading ∈ readings dir listing ↔ ∃ entry ∈ listing, reading? dir entry = some reading := by
  rw [readings, List.mem_filterMap]
  simp only [inOrder, List.mem_mergeSort]

/-- A definition that was read is declared by an entry. -/
theorem exists_declares_of_mem {dir : Path} {listing : List DirectoryEntry} {path : Path}
    {d : Definition} (member : (path, .ok d) ∈ readings dir listing) :
    ∃ entry ∈ listing, Declares dir entry d ∧ path = dir.child entry.1 := by
  obtain ⟨entry, entryMember, read⟩ := mem_readings_iff.1 member
  have same : path = dir.child entry.1 := path_of_reading? read
  exact ⟨entry, entryMember, declares_iff.2 (same ▸ read), same⟩

/-- The order of the names is strict. -/
theorem pairwise_inOrder {listing : List DirectoryEntry} (distinct : (listing.map Prod.fst).Nodup) :
    (inOrder listing).Pairwise fun a b => a.1 < b.1 := by
  have ordered : (inOrder listing).Pairwise fun a b => decide (a.1 ≤ b.1) = true := by
    refine List.pairwise_mergeSort ?_ ?_ listing
    · intro a b c first second
      exact decide_eq_true (Std.le_trans (of_decide_eq_true first) (of_decide_eq_true second))
    · intro a b
      rw [Bool.or_eq_true, decide_eq_true_iff, decide_eq_true_iff]
      exact Std.le_total
  have different : (inOrder listing).Pairwise fun a b => a.1 ≠ b.1 := by
    have names : ((inOrder listing).map Prod.fst).Nodup :=
      ((List.mergeSort_perm ..).map Prod.fst).nodup_iff.2 distinct
    exact List.pairwise_map.1 names
  refine ordered.imp₂ ?_ different
  intro a b le ne
  exact Std.lt_of_le_of_ne (of_decide_eq_true le) ne

/-- Lists of entries in the order of their names are equal if they hold the same. -/
theorem eq_of_perm_of_pairwise {first second : List DirectoryEntry} (same : first.Perm second)
    (firstOrder : first.Pairwise fun a b => a.1 < b.1)
    (secondOrder : second.Pairwise fun a b => a.1 < b.1) : first = second := by
  refine same.eq_of_pairwise ?_ firstOrder secondOrder
  intro a b _ _ less greater
  exact absurd (Std.lt_trans less greater) Std.lt_irrefl

/-- The order in which a directory is listed does not matter. -/
theorem inOrder_eq_of_perm {first second : List DirectoryEntry} (same : first.Perm second)
    (distinct : (first.map Prod.fst).Nodup) : inOrder first = inOrder second := by
  refine eq_of_perm_of_pairwise ?_ (pairwise_inOrder distinct)
    (pairwise_inOrder ((same.map Prod.fst).nodup_iff.1 distinct))
  exact (List.mergeSort_perm ..).trans (same.trans (List.mergeSort_perm ..).symm)

/-! ## The readings of a directory -/

section

variable {dir : Path} {listing : List DirectoryEntry}
  (distinct : (listing.map Prod.fst).Nodup) (plain : ∀ entry ∈ listing, '/' ∉ entry.1.toList)

include distinct plain in
/-- Files are read in the order of their names. -/
theorem pairwise_readings : (readings dir listing).Pairwise fun first second =>
    ∀ entry ∈ listing, ∀ other ∈ listing, first.1 = dir.child entry.1 →
      second.1 = dir.child other.1 → entry.1 < other.1 := by
  rw [readings, List.pairwise_filterMap]
  refine (pairwise_inOrder distinct).imp_of_mem ?_
  intro a b aIn bIn less first read second otherRead entry member other otherMember here there
  rw [inOrder, List.mem_mergeSort] at aIn bIn
  have same : a.1 = entry.1 := Path.child_injective (plain a aIn) (plain entry member)
    ((path_of_reading? read).symm.trans here)
  have otherSame : b.1 = other.1 := Path.child_injective (plain b bIn) (plain other otherMember)
    ((path_of_reading? otherRead).symm.trans there)
  rw [← same, ← otherSame]
  exact less

include distinct plain in
/-- No file is read twice. -/
theorem nodup_readings : ((readings dir listing).map Prod.fst).Nodup := by
  rw [List.Nodup, List.pairwise_map]
  refine (pairwise_readings distinct plain).imp_of_mem ?_
  intro first second member _ less same
  obtain ⟨entry, entryMember, read⟩ := mem_readings_iff.1 member
  have path := path_of_reading? read
  exact Std.lt_irrefl (less entry entryMember entry entryMember path (same ▸ path))

variable {l : Library} {told : List LoadEvent} (recorded : Recorded (readings dir listing) l told)

include recorded in
/-- A name is in the library if a file declares it. -/
theorem isSome_get?_iff {name : String} : (l.get? name).isSome = true ↔
    ∃ entry ∈ listing, ∃ d, Declares dir entry d ∧ d.name = name := by
  rw [recorded.stored, List.findSome?_isSome_iff]
  constructor
  · rintro ⟨reading, member, made⟩
    obtain ⟨stored, made⟩ := Option.isSome_iff_exists.1 made
    obtain ⟨rfl, named⟩ := loadedAs?_eq_some_iff.1 made
    obtain ⟨entry, entryMember, declares, _⟩ := exists_declares_of_mem (List.mem_reverse.1 member)
    exact ⟨entry, entryMember, stored.definition, declares, named⟩
  · rintro ⟨entry, entryMember, d, declares, named⟩
    have member := mem_readings_iff.2 ⟨entry, entryMember, declares_iff.1 declares⟩
    refine ⟨_, List.mem_reverse.2 member, ?_⟩
    rw [loadedAs?, if_pos named]
    rfl

include distinct plain recorded in
/-- What is stored comes from the greatest file that declares the name. -/
theorem greatest_of_get? {name : String} {stored : LoadedPipeline}
    (found : l.get? name = some stored) :
    ∃ entry ∈ listing, Declares dir entry stored.definition ∧ stored.definition.name = name ∧
      stored.path = dir.child entry.1 ∧
      ∀ other ∈ listing, ∀ d, Declares dir other d → d.name = name → other.1 ≤ entry.1 := by
  rw [recorded.stored, List.findSome?_eq_some_iff] at found
  obtain ⟨after, reading, before, split, made, none⟩ := found
  obtain ⟨rfl, named⟩ := loadedAs?_eq_some_iff.1 made
  rw [List.reverse_eq_iff, List.reverse_append, List.reverse_cons, List.append_assoc,
    List.singleton_append] at split
  have member : (stored.path, .ok stored.definition) ∈ readings dir listing :=
    split ▸ List.mem_append_right _ List.mem_cons_self
  obtain ⟨entry, entryMember, declares, path⟩ := exists_declares_of_mem member
  refine ⟨entry, entryMember, declares, named, path, ?_⟩
  intro other otherMember d otherDeclares otherNamed
  have otherRead := mem_readings_iff.2 ⟨other, otherMember, declares_iff.1 otherDeclares⟩
  have order : (readings dir listing).Pairwise _ := pairwise_readings distinct plain
  rw [split] at otherRead order
  rcases List.mem_append.1 otherRead with earlier | here
  · have less := (List.pairwise_append.1 order).2.2 _ earlier _ List.mem_cons_self
    exact Std.le_of_lt (less other otherMember entry entryMember rfl path)
  · rcases List.mem_cons.1 here with same | later
    · have same : dir.child other.1 = dir.child entry.1 := (Prod.mk.inj same).1.trans path
      exact Std.le_of_eq
        (Path.child_injective (plain other otherMember) (plain entry entryMember) same)
    · have made := none _ (List.mem_reverse.1 later)
      rw [loadedAs?, if_pos otherNamed] at made
      contradiction

include recorded in
/-- The events about a candidate, by what was read from it. -/
theorem about_entry {entry : DirectoryEntry} (member : entry ∈ listing)
    {result : Except DefinitionFault Definition}
    (read : reading? dir entry = some (dir.child entry.1, result)) :
    ∃ before after, readings dir listing = before ++ (dir.child entry.1, result) :: after ∧
      told.filter (·.path == dir.child entry.1) = events after (dir.child entry.1, result) := by
  obtain ⟨before, after, split⟩ :=
    List.append_of_mem (mem_readings_iff.2 ⟨entry, member, read⟩)
  exact ⟨before, after, split, recorded.about before _ after split⟩

include distinct plain recorded in
/-- **A record of the readings of a directory tells what the directory holds.** -/
theorem faithful_of_recorded : Faithful dir listing l told where
  declared name := Table.mem_names_iff.trans (isSome_get?_iff recorded)
  greatest name stored := by
    refine ⟨greatest_of_get? distinct plain recorded, ?_⟩
    rintro ⟨entry, member, declares, named, path, greatest⟩
    obtain ⟨other, found⟩ := Option.isSome_iff_exists.1
      ((isSome_get?_iff recorded).2 ⟨entry, member, stored.definition, declares, named⟩)
    obtain ⟨last, lastMember, lastDeclares, lastNamed, lastPath, lastGreatest⟩ :=
      greatest_of_get? distinct plain recorded found
    have same : entry.1 = last.1 :=
      Std.le_antisymm (lastGreatest entry member _ declares named)
        (greatest last lastMember _ lastDeclares lastNamed)
    obtain rfl := List.inj_on_of_nodup_map distinct member lastMember same
    rw [found]
    obtain ⟨d, place⟩ := stored
    obtain ⟨otherDefinition, otherPlace⟩ := other
    cases path.trans lastPath.symm
    cases (declares_iff.1 declares).symm.trans (declares_iff.1 lastDeclares)
    rfl
  increasing := ⟨l.pipelines.pairwise_names, fun _ => Table.mem_names_iff⟩
  sound name stored found := by
    obtain ⟨entry, _, ⟨_, _, _, _, _, _, sound⟩, named, _⟩ :=
      greatest_of_get? distinct plain recorded found
    exact ⟨sound, named⟩
  invalid entry member candidate invalid := by
    obtain ⟨result, read⟩ := candidate_iff.1 candidate
    obtain ⟨before, after, _, about⟩ := about_entry recorded member read
    cases result with
    | error fault => exact ⟨fault, about⟩
    | ok d => exact absurd (declares_iff.2 read) (invalid d)
  kept entry member d declares stored := by
    obtain ⟨before, after, split, about⟩ := about_entry recorded member (declares_iff.1 declares)
    rw [about, events, (recorded.get?_eq_some_iff split).1 stored]
    rfl
  replaced entry member d declares other := by
    obtain ⟨before, after, split, about⟩ := about_entry recorded member (declares_iff.1 declares)
    obtain ⟨next, later⟩ := Option.ne_none_iff_exists'.1
      (mt (recorded.get?_eq_some_iff split).2 other)
    refine ⟨next.path, ?_⟩
    rw [about, events, later]
    rfl
  known event member := by
    obtain ⟨reading, readingMember, same⟩ := List.mem_map.1 (recorded.known event member)
    obtain ⟨entry, entryMember, read⟩ := mem_readings_iff.1 readingMember
    have path := path_of_reading? read
    obtain ⟨place, result⟩ := reading
    exact ⟨entry, entryMember, candidate_iff.2 ⟨result, path ▸ read⟩, same ▸ path⟩
  balance := recorded.balance

end

end Library

/-! ## Loading -/

namespace Host

variable {σ : Type} {host : Host (StateM σ)} {s : σ} {dir : Path}

theorem run_filesAmong {entries : List DirectoryEntry}
    (files : ∀ entry ∈ entries, (host.isFile (dir.child entry.1)).run s = (entry.2.isSome, s)) :
    (host.filesAmong (entries.map fun entry => dir.child entry.1)).run s =
      ((entries.filter (·.2.isSome)).map fun entry => dir.child entry.1, s) := by
  induction entries with
  | nil => rfl
  | cons entry rest ih =>
    obtain ⟨here, later⟩ := List.forall_mem_cons.1 files
    rw [List.map_cons, filesAmong, run_bind_of here, run_bind_of (ih later), List.filter_cons]
    split
    · rfl
    · rfl

theorem run_readUsable {path : Path} {content : Except IoError Bytes} {t : σ}
    (read : (host.read path).run s = (content, t)) :
    (host.readUsable path).run s = (Library.content path content, t) := by
  have definition : (host.readDefinition path).run s = (Library.definitionOf path content, t) := by
    rw [readDefinition, run_bind_of (run_readText read), Library.definitionOf]
    cases textOf content with
    | error cause => rfl
    | ok text => rfl
  rw [readUsable, run_bind_of definition]
  rfl

theorem run_readAll {entries : List DirectoryEntry}
    (contents : ∀ entry ∈ entries, ∃ content, entry.2 = some content ∧
      (host.read (dir.child entry.1)).run s = (content, s)) :
    (host.readAll (entries.map fun entry => dir.child entry.1)).run s =
      (entries.filterMap fun entry => entry.2.map fun content =>
        (dir.child entry.1, Library.content (dir.child entry.1) content), s) := by
  induction entries with
  | nil => rfl
  | cons entry rest ih =>
    obtain ⟨⟨content, some, read⟩, later⟩ := List.forall_mem_cons.1 contents
    rw [List.map_cons, readAll, run_bind_of (run_readUsable read), run_bind_of (ih later),
      List.filterMap_cons, some]
    rfl

/-- The entries whose names a definition may have. -/
def named (dir : Path) (listing : List DirectoryEntry) : List DirectoryEntry :=
  (Library.inOrder listing).filter fun entry => (dir.child entry.1).extension? == some "toml"

theorem mem_of_mem_named {listing : List DirectoryEntry} {entry : DirectoryEntry}
    (chosen : entry ∈ named dir listing) : entry ∈ listing :=
  List.mem_mergeSort.1 (List.mem_filter.1 chosen).1

theorem candidates_eq (listing : List DirectoryEntry) :
    candidates dir (listing.map Prod.fst) =
      (named dir listing).map fun entry => dir.child entry.1 := by
  have names : (Library.inOrder listing).map Prod.fst =
      (listing.map Prod.fst).mergeSort fun a b => decide (a ≤ b) :=
    List.map_mergeSort (f := Prod.fst) fun a _ b _ => rfl
  rw [candidates, ← names, List.map_map, List.filter_map]
  rfl

/-- The readings are those of the files among them. -/
theorem readings_eq (listing : List DirectoryEntry) :
    Library.readings dir listing =
      ((named dir listing).filter (·.2.isSome)).filterMap fun entry =>
        entry.2.map fun content =>
          (dir.child entry.1, Library.content (dir.child entry.1) content) := by
  rw [Library.readings, named, List.filterMap_filter, List.filterMap_filter]
  congr 1
  funext entry
  rw [Library.reading?]
  obtain ⟨name, content⟩ := entry
  cases content with
  | none => rfl
  | some content => rfl

/-- What is loaded from a directory: the readings of its files, in the order of their names. -/
theorem Shows.run_loadLibrary {listing : List DirectoryEntry}
    (directory : host.Shows s dir listing) :
    (host.loadLibrary dir).run s = (Library.empty.addAll (Library.readings dir listing), s) := by
  have files : ∀ entry ∈ named dir listing,
      (host.isFile (dir.child entry.1)).run s = (entry.2.isSome, s) :=
    fun entry chosen => directory.files entry (mem_of_mem_named chosen)
  have contents : ∀ entry ∈ (named dir listing).filter (·.2.isSome), ∃ content,
      entry.2 = some content ∧ (host.read (dir.child entry.1)).run s = (content, s) := by
    intro entry chosen
    obtain ⟨named, file⟩ := List.mem_filter.1 chosen
    obtain ⟨content, some⟩ := Option.isSome_iff_exists.1 file
    exact ⟨content, some, directory.contents entry (mem_of_mem_named named) content some⟩
  rw [loadLibrary, run_bind_of directory.names]
  dsimp only
  rw [candidates_eq, run_bind_of (run_filesAmong files), run_bind_of (run_readAll contents),
    readings_eq]
  rfl

end Host

/-! ## Directories of machines -/

namespace Machine

/-- What a name in a directory of a machine is the name of. -/
def directoryEntry (machine : Machine) (dir : Path) (name : String) : DirectoryEntry :=
  (name,
    if machine.files.isFile machine.directory (dir.child name) then
      some (machine.files.read machine.directory (dir.child name))
    else none)

/-- A machine lists no name twice. -/
theorem nodup_list {files : Files} {directory : Location} {dir : Path} {names : List String}
    (listed : files.list directory dir = .ok names) : names.Nodup := by
  rw [Files.list] at listed
  split at listed
  · cases listed
    exact Table.nodup_names _
  · cases listed
  · cases listed

/-- A directory of a machine can be looked at. -/
theorem shows_of_list (launch : Invocation → StateM Machine LaunchOutcome) {machine : Machine}
    {dir : Path} {names : List String}
    (listed : machine.files.list machine.directory dir = .ok names)
    (plain : ∀ name ∈ names, '/' ∉ name.toList) :
    (host launch).Shows machine dir (names.map (machine.directoryEntry dir)) := by
  have same : (names.map (machine.directoryEntry dir)).map Prod.fst = names := by
    rw [List.map_map]
    exact List.map_id names
  refine ⟨?_, ?_, ?_, ?_, ?_⟩
  · rw [same, ← listed]
    rfl
  · intro entry member
    obtain ⟨name, _, rfl⟩ := List.mem_map.1 member
    change (machine.files.isFile machine.directory (dir.child name), machine) = _
    rw [directoryEntry]
    cases machine.files.isFile machine.directory (dir.child name) with
    | true => rfl
    | false => rfl
  · intro entry member content held
    obtain ⟨name, _, rfl⟩ := List.mem_map.1 member
    rw [directoryEntry] at held
    split at held
    · cases held
      rfl
    · cases held
  · rw [same]
    exact nodup_list listed
  · intro entry member
    obtain ⟨name, nameMember, rfl⟩ := List.mem_map.1 member
    exact plain name nameMember

end Machine

/-! ## Fidelity -/

/-- Without one of its files, the readings of a directory are the others. -/
theorem Library.readings_of_perm_cons {dir : Path} {listing fewer : List DirectoryEntry}
    {entry : DirectoryEntry} (distinct : (listing.map Prod.fst).Nodup)
    (same : listing.Perm (entry :: fewer)) {reading : Reading}
    (read : reading? dir entry = some reading) :
    ∃ before after, readings dir listing = before ++ reading :: after ∧
      readings dir fewer = before ++ after := by
  have order := pairwise_inOrder distinct
  have sorted : (inOrder listing).Perm (entry :: fewer) := (List.mergeSort_perm ..).trans same
  obtain ⟨first, second, split⟩ := List.append_of_mem (sorted.mem_iff.2 List.mem_cons_self)
  rw [split] at order sorted
  have others : (first ++ second).Perm fewer := (List.perm_middle.symm.trans sorted).cons_inv
  have othersOrder : (first ++ second).Pairwise fun a b => a.1 < b.1 :=
    order.sublist ((List.sublist_cons_self entry second).append_left first)
  have fewerDistinct : (fewer.map Prod.fst).Nodup :=
    (List.nodup_cons.1 ((same.map Prod.fst).nodup_iff.1 distinct)).2
  have left : inOrder fewer = first ++ second :=
    eq_of_perm_of_pairwise ((List.mergeSort_perm ..).trans others.symm)
      (pairwise_inOrder fewerDistinct) othersOrder
  refine ⟨first.filterMap (reading? dir), second.filterMap (reading? dir), ?_, ?_⟩
  · rw [readings, split, List.filterMap_append, List.filterMap_cons_some read]
  · rw [readings, left, List.filterMap_append]

/-- **Loading a directory loses and duplicates nothing.** The library and the events tell what the
directory holds; they are the same in whatever order the directory is listed; and without one of
the unusable files the library is the same, and so are the events but for the one about that
file. -/
theorem library_faithful {σ : Type} {host : Host (StateM σ)} {s : σ} {dir : Path}
    {listing : List DirectoryEntry} (directory : host.Shows s dir listing) :
    ∃ library told, (host.loadLibrary dir).run s = ((library, told), s) ∧
      Library.Faithful dir listing library told ∧
      (∀ {τ : Type} (other : Host (StateM τ)) (t : τ) (relisting : List DirectoryEntry),
        other.Shows t dir relisting → relisting.Perm listing →
          (other.loadLibrary dir).run t = ((library, told), t)) ∧
      ∀ {τ : Type} (other : Host (StateM τ)) (t : τ) (entry : DirectoryEntry)
        (fewer : List DirectoryEntry),
        other.Shows t dir fewer → listing.Perm (entry :: fewer) → Library.Candidate dir entry →
          (∀ d, ¬ Library.Declares dir entry d) →
            ∃ earlier later fault,
              told = earlier ++ .skipped (dir.child entry.1) (.unusable fault) :: later ∧
                (other.loadLibrary dir).run t = ((library, earlier ++ later), t) := by
  refine ⟨_, _, directory.run_loadLibrary, ?_, ?_, ?_⟩
  · exact Library.faithful_of_recorded directory.distinct directory.plain
      (Library.recorded_addAll (Library.nodup_readings directory.distinct directory.plain))
  · intro τ other t relisting shown same
    rw [shown.run_loadLibrary, Library.readings, Library.readings,
      Library.inOrder_eq_of_perm same shown.distinct]
  · intro τ other t entry fewer shown same candidate invalid
    obtain ⟨result, read⟩ := Library.candidate_iff.1 candidate
    cases result with
    | ok d => exact absurd (Library.declares_iff.2 read) (invalid d)
    | error fault =>
      obtain ⟨before, after, all, left⟩ :=
        Library.readings_of_perm_cons directory.distinct same read
      obtain ⟨earlier, later, whole, rest⟩ :=
        Library.empty.addAll_unusable before after (dir.child entry.1) fault
      refine ⟨earlier, later, fault, ?_, ?_⟩
      · rw [all, whole]
      · rw [shown.run_loadLibrary, left, all, whole, ← rest]

/-- A definition. -/
def Definition.older : Definition := ⟨"same", "", none, [.ofTool "fxc"]⟩

/-- Another definition with its name. -/
def Definition.newer : Definition := ⟨"same", "", none, [.ofTool "dxc"]⟩

/-- A machine with a library that holds both, a file without text and a directory. -/
def Machine.crowded : Machine where
  files := ⟨[(⟨["lib"]⟩, .directory), (⟨["lib", "old.toml"]⟩, .directory),
    (⟨["lib", "bad.toml"]⟩, .file [0xFF] false),
    (⟨["lib", "b.toml"]⟩, .file (Text.encode Definition.newer.write) false),
    (⟨["lib", "a.toml"]⟩, .file (Text.encode Definition.older.write) false)]⟩
  directory := .root
  environment := .empty
  workspaces := 0

/-- What the machine's library holds. -/
def crowdedListing : List DirectoryEntry :=
  [("a.toml", some (.ok (Text.encode Definition.older.write))),
    ("b.toml", some (.ok (Text.encode Definition.newer.write))),
    ("bad.toml", some (.ok [0xFF])), ("old.toml", none)]

/-- The machine's host tells it. -/
theorem crowded_listing : Machine.scriptHost.Shows .crowded ⟨"lib"⟩ crowdedListing := by
  have listed : Machine.crowded.files.list .root ⟨"lib"⟩ =
      .ok ["a.toml", "b.toml", "bad.toml", "old.toml"] := by
    decide +kernel
  have plain : ∀ name ∈ ["a.toml", "b.toml", "bad.toml", "old.toml"], '/' ∉ name.toList := by
    decide +kernel
  have entries : ["a.toml", "b.toml", "bad.toml", "old.toml"].map
      (Machine.crowded.directoryEntry ⟨"lib"⟩) = crowdedListing := by
    decide +kernel
  exact entries ▸ Machine.shows_of_list Machine.launch listed plain

/-- The definition in the greater file stays. -/
theorem library_faithful_crowded :
    Machine.scriptHost.Shows .crowded ⟨"lib"⟩ crowdedListing ∧
      ∃ library told, (Machine.scriptHost.loadLibrary ⟨"lib"⟩).run .crowded =
          ((library, told), .crowded) ∧
        Library.Faithful ⟨"lib"⟩ crowdedListing library told ∧
          library.get? "same" = some ⟨.newer, ⟨"lib/b.toml"⟩⟩ := by
  obtain ⟨library, told, loaded, faithful, _⟩ := library_faithful crowded_listing
  refine ⟨crowded_listing, library, told, loaded, faithful, ?_⟩
  have path : (⟨"lib"⟩ : Path).child "b.toml" = ⟨"lib/b.toml"⟩ := by decide +kernel
  have declares : Library.Declares ⟨"lib"⟩
      ("b.toml", some (.ok (Text.encode Definition.newer.write))) .newer :=
    ⟨by decide +kernel, _, Definition.newer.write, rfl, Text.decode?_encode _, by decide +kernel,
      rfl⟩
  refine (faithful.greatest "same" _).2 ⟨_, .tail _ (.head _), declares, rfl, path.symm, ?_⟩
  intro other member d otherDeclares _
  obtain ⟨_, bytes, text, file, decoded, _⟩ := otherDeclares
  rw [crowdedListing] at member
  simp only [List.mem_cons, List.not_mem_nil, or_false] at member
  rcases member with rfl | rfl | rfl | rfl
  · decide +kernel
  · decide +kernel
  · cases file
    have noText : Text.decode? [0xFF] = none := by decide +kernel
    rw [noText] at decoded
    contradiction
  · cases file

end ShaderChain
