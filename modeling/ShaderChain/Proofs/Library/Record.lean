import Mathlib.Data.List.Nodup
import ShaderChain.Library
import ShaderChain.Proofs.Table

/-!
# What a library records of the files it reads

A library takes in readings one after the other. At any time it holds, under a
name, the last reading so far that declares the name, and the events so far tell
of each reading exactly what became of it (`Library.events`): it was unusable, or
it was loaded and, if a later reading declares the same name, replaced by the
first such. `Library.Recorded` is this link between the library and the events.
One reading keeps it (`Recorded.add`), and so do several (`Recorded.addAll`).
-/

set_option autoImplicit false

namespace ShaderChain

namespace LoadEvent

/-- The file that an event is about. -/
def path : LoadEvent → Path
  | loaded _ path => path
  | skipped path _ => path

/-- Whether an event tells that a file was loaded. -/
def isLoaded : LoadEvent → Bool
  | loaded .. => true
  | skipped .. => false

/-- Whether an event tells that another file took the place of a file. -/
def isReplacement : LoadEvent → Bool
  | skipped _ (.redefined ..) => true
  | _ => false

end LoadEvent

namespace Library

/-- A file with what was read from it. -/
abbrev Reading := Path × Except DefinitionFault Definition

/-- The entry that a reading makes under a name, if it declares the name. -/
def loadedAs? (name : String) : Reading → Option LoadedPipeline
  | (path, .ok d) => if d.name = name then some ⟨d, path⟩ else none
  | (_, .error _) => none

/-- The events about a reading, in view of the readings after it. -/
def events (later : List Reading) : Reading → List LoadEvent
  | (path, .error fault) => [.skipped path (.unusable fault)]
  | (path, .ok d) =>
    .loaded d.name path :: ((later.findSome? (loadedAs? d.name)).map fun next =>
      LoadEvent.skipped path (.redefined d.name next.path)).toList

theorem loadedAs?_eq_some_iff {name : String} {reading : Reading} {entry : LoadedPipeline} :
    loadedAs? name reading = some entry ↔
      reading = (entry.path, .ok entry.definition) ∧ entry.definition.name = name := by
  obtain ⟨path, result⟩ := reading
  obtain ⟨d, place⟩ := entry
  cases result with
  | error fault => simp [loadedAs?]
  | ok other =>
    rw [loadedAs?]
    constructor
    · intro made
      split at made
      case isTrue same =>
        cases made
        exact ⟨rfl, same⟩
      case isFalse => contradiction
    · rintro ⟨same, named⟩
      cases same
      exact if_pos named

/-- Whether some reading declares a name does not depend on their order. -/
theorem findSome?_reverse_eq_none_iff {name : String} {readings : List Reading} :
    readings.reverse.findSome? (loadedAs? name) = none ↔ readings.findSome? (loadedAs? name) = none := by
  simp only [List.findSome?_eq_none_iff, List.mem_reverse]

/-- What a library and its events tell of the readings so far. -/
structure Recorded (readings : List Reading) (l : Library) (told : List LoadEvent) : Prop where
  /-- No file is read twice. -/
  distinct : (readings.map Prod.fst).Nodup
  /-- Under a name is the last reading that declares it. -/
  stored : ∀ name, l.get? name = readings.reverse.findSome? (loadedAs? name)
  /-- The events about a reading. -/
  about : ∀ before reading after, readings = before ++ reading :: after →
    told.filter (·.path == reading.1) = events after reading
  /-- There are no other events. -/
  known : ∀ event ∈ told, event.path ∈ readings.map Prod.fst
  /-- What was loaded is there, or was replaced. -/
  balance : told.countP (·.isLoaded) = l.size + told.countP (·.isReplacement)

namespace Recorded

variable {readings : List Reading} {l : Library} {told : List LoadEvent}

theorem nothing : Recorded [] .empty [] where
  distinct := .nil
  stored _ := rfl
  about before reading after split := by
    cases before <;> contradiction
  known := nofun
  balance := rfl

/-- What is stored was read. -/
theorem mem_of_get? (recorded : Recorded readings l told) {name : String} {entry : LoadedPipeline}
    (stored : l.get? name = some entry) :
    (entry.path, .ok entry.definition) ∈ readings ∧ entry.definition.name = name := by
  rw [recorded.stored] at stored
  obtain ⟨reading, member, made⟩ := List.exists_of_findSome?_eq_some stored
  obtain ⟨rfl, named⟩ := loadedAs?_eq_some_iff.1 made
  exact ⟨List.mem_reverse.1 member, named⟩

/-- A file that was not read yet has no events. -/
theorem filter_of_new (recorded : Recorded readings l told) {path : Path}
    (new : path ∉ readings.map Prod.fst) : told.filter (·.path == path) = [] := by
  rw [List.filter_eq_nil_iff]
  intro event member same
  exact new (beq_iff_eq.1 same ▸ recorded.known event member)

/-- Another file's replacement is no event about a file. -/
theorem filter_replacement_of_elsewhere {others : List Reading} {path : Path}
    {name : String} {entry : LoadedPipeline} (next : Path) (apart : path ∉ others.map Prod.fst)
    (found : others.findSome? (loadedAs? name) = some entry) :
    (replacement name next (some entry)).filter (·.path == path) = [] := by
  obtain ⟨other, member, made⟩ := List.exists_of_findSome?_eq_some found
  obtain ⟨rfl, _⟩ := loadedAs?_eq_some_iff.1 made
  have different : (entry.path == path) = false := by
    rw [beq_eq_false_iff_ne]
    exact fun same => apart (same ▸ List.mem_map_of_mem member)
  exact List.filter_cons_of_neg (ne_true_of_eq_false different)

/-- The readings before and after one are about other files. -/
theorem apart (recorded : Recorded readings l told) {before after : List Reading}
    {reading : Reading} (split : readings = before ++ reading :: after) :
    reading.1 ∉ before.map Prod.fst ∧ reading.1 ∉ after.map Prod.fst := by
  have distinct := recorded.distinct
  rw [split, List.map_append, List.map_cons, List.nodup_middle, List.nodup_cons,
    List.mem_append, not_or] at distinct
  exact distinct.1

/-- A reading that a new definition replaces is the last one that declares its name. -/
theorem filter_replacement (recorded : Recorded readings l told) {before after : List Reading}
    {reading : Reading} (split : readings = before ++ reading :: after) (name : String)
    (next : Path) :
    (replacement name next (l.get? name)).filter (·.path == reading.1) =
      match after.findSome? (loadedAs? name) with
      | some _ => []
      | none => ((loadedAs? name reading).map fun entry =>
          LoadEvent.skipped entry.path (.redefined name next)).toList := by
  have apart : reading.1 ∉ before.reverse.map Prod.fst ∧
      reading.1 ∉ after.reverse.map Prod.fst := by
    rw [List.map_reverse, List.map_reverse, List.mem_reverse, List.mem_reverse]
    exact recorded.apart split
  rw [recorded.stored, split, List.reverse_append, List.reverse_cons, List.findSome?_append,
    List.findSome?_append, List.findSome?_singleton]
  cases found : after.findSome? (loadedAs? name) with
  | some later =>
    have someLast : after.reverse.findSome? (loadedAs? name) ≠ none := by
      rw [Ne, findSome?_reverse_eq_none_iff, found]
      exact nofun
    obtain ⟨last, foundLast⟩ := Option.ne_none_iff_exists'.1 someLast
    rw [foundLast]
    exact filter_replacement_of_elsewhere next apart.2 foundLast
  | none =>
    rw [findSome?_reverse_eq_none_iff.2 found]
    cases made : loadedAs? name reading with
    | some entry =>
      obtain ⟨rfl, _⟩ := loadedAs?_eq_some_iff.1 made
      exact List.filter_cons_of_pos (beq_self_eq_true entry.path)
    | none =>
      cases earlier : before.reverse.findSome? (loadedAs? name) with
      | none => rfl
      | some entry => exact filter_replacement_of_elsewhere next apart.1 earlier

/-- The events about a reading, in view of one more reading after it. -/
theorem about_append {before after : List Reading} {reading : Reading}
    (recorded : Recorded readings l told) (split : readings = before ++ reading :: after)
    {path : Path} (new : path ∉ readings.map Prod.fst)
    (result : Except DefinitionFault Definition) :
    (told ++ (l.add path result).2).filter (·.path == reading.1) =
      events (after ++ [(path, result)]) reading := by
  have other : (path == reading.1) = false := by
    rw [beq_eq_false_iff_ne]
    rintro rfl
    exact new (List.mem_map_of_mem (split ▸ List.mem_append_right _ List.mem_cons_self))
  rw [List.filter_append, recorded.about before reading after split]
  cases result with
  | error fault =>
    have nothing : ([LoadEvent.skipped path (.unusable fault)]).filter (·.path == reading.1) = [] :=
      List.filter_cons_of_neg (ne_true_of_eq_false other)
    rw [Library.add, nothing, List.append_nil]
    obtain ⟨place, own⟩ := reading
    cases own with
    | error own => rfl
    | ok own =>
      rw [events, events, List.findSome?_append, List.findSome?_singleton, loadedAs?, Option.or_none]
  | ok d =>
    have nothing : ([LoadEvent.loaded d.name path]).filter (·.path == reading.1) = [] :=
      List.filter_cons_of_neg (ne_true_of_eq_false other)
    rw [Library.add, List.filter_append, nothing, List.append_nil,
      recorded.filter_replacement split d.name path]
    obtain ⟨place, own⟩ := reading
    cases own with
    | error own =>
      rw [events, loadedAs?]
      cases after.findSome? (loadedAs? d.name) with
      | none => rfl
      | some later => rfl
    | ok own =>
      rw [events, events, List.findSome?_append, List.findSome?_singleton, loadedAs?, loadedAs?]
      by_cases same : own.name = d.name
      · rw [if_pos same, if_pos same.symm, same]
        cases after.findSome? (loadedAs? d.name) with
        | none => rfl
        | some later => rfl
      · rw [if_neg same, if_neg (Ne.symm same), Option.or_none]
        cases after.findSome? (loadedAs? d.name) with
        | none => exact List.append_nil _
        | some later => exact List.append_nil _

/-- The events about a new reading. -/
theorem about_new (recorded : Recorded readings l told) {path : Path}
    (new : path ∉ readings.map Prod.fst) (result : Except DefinitionFault Definition) :
    (told ++ (l.add path result).2).filter (·.path == path) = events [] (path, result) := by
  rw [List.filter_append, recorded.filter_of_new new, List.nil_append]
  cases result with
  | error fault => exact List.filter_cons_of_pos (beq_self_eq_true path)
  | ok d =>
    have others : (replacement d.name path (l.get? d.name)).filter (·.path == path) = [] := by
      cases stored : l.get? d.name with
      | none => rfl
      | some entry =>
        rw [recorded.stored] at stored
        have apart : path ∉ readings.reverse.map Prod.fst := by
          rw [List.map_reverse, List.mem_reverse]
          exact new
        exact filter_replacement_of_elsewhere path apart stored
    rw [Library.add, List.filter_append, others, List.nil_append]
    exact List.filter_cons_of_pos (beq_self_eq_true path)

/-- The events that one more reading causes are about it or a reading before it. -/
theorem path_of_mem_add (recorded : Recorded readings l told) {path : Path}
    {result : Except DefinitionFault Definition} {event : LoadEvent}
    (member : event ∈ (l.add path result).2) :
    event.path = path ∨ event.path ∈ readings.map Prod.fst := by
  cases result with
  | error fault => exact .inl (List.mem_singleton.1 member ▸ rfl)
  | ok d =>
    rcases List.mem_append.1 member with replaced | loaded
    case inr => exact .inl (List.mem_singleton.1 loaded ▸ rfl)
    case inl =>
      cases stored : l.get? d.name with
      | none =>
        rw [stored] at replaced
        contradiction
      | some entry =>
        rw [stored] at replaced
        obtain ⟨read, _⟩ := recorded.mem_of_get? stored
        exact .inr (List.mem_singleton.1 replaced ▸ List.mem_map_of_mem read)

/-- What is stored after one more reading. -/
theorem get?_add (recorded : Recorded readings l told) (path : Path)
    (result : Except DefinitionFault Definition) (name : String) :
    (l.add path result).1.get? name =
      (readings ++ [(path, result)]).reverse.findSome? (loadedAs? name) := by
  rw [List.reverse_append, List.findSome?_append, List.reverse_singleton,
    List.findSome?_singleton, ← recorded.stored]
  cases result with
  | error fault => rfl
  | ok d =>
    rw [Library.add, loadedAs?]
    split
    case isTrue same =>
      rw [← same]
      exact Table.get?_insert_self ..
    case isFalse other => exact Table.get?_insert_of_ne _ _ other

/-- One more reading is loaded and adds to the library, or replaces what is there. -/
theorem balance_add (recorded : Recorded readings l told) (path : Path)
    (result : Except DefinitionFault Definition) :
    (told ++ (l.add path result).2).countP (·.isLoaded) =
      (l.add path result).1.size + (told ++ (l.add path result).2).countP (·.isReplacement) := by
  have balance := recorded.balance
  rw [List.countP_append, List.countP_append]
  cases result with
  | error fault => exact balance
  | ok d =>
    rw [Library.add, size, Table.size_insert]
    cases stored : l.get? d.name with
    | none =>
      rw [get?] at stored
      rw [stored]
      change _ + 1 = l.size + 1 + (_ + 0)
      omega
    | some entry =>
      rw [get?] at stored
      rw [stored]
      change _ + 1 = l.size + (_ + 1)
      omega

/-- **One more reading** keeps the record. -/
theorem add (recorded : Recorded readings l told) {path : Path}
    (new : path ∉ readings.map Prod.fst) (result : Except DefinitionFault Definition) :
    Recorded (readings ++ [(path, result)]) (l.add path result).1
      (told ++ (l.add path result).2) where
  distinct := by
    rw [List.map_append, List.nodup_append]
    refine ⟨recorded.distinct, List.nodup_singleton _, ?_⟩
    rintro first member second single rfl
    exact new ((List.mem_singleton.1 single : first = path) ▸ member)
  stored := recorded.get?_add path result
  about before reading after split := by
    rcases after.eq_nil_or_concat' with rfl | ⟨init, final, rfl⟩
    case inl =>
      obtain ⟨_, single⟩ := List.append_inj' split rfl
      cases single
      exact recorded.about_new new result
    case inr =>
      rw [← List.cons_append, ← List.append_assoc] at split
      obtain ⟨earlier, single⟩ := List.append_inj' split rfl
      cases single
      exact recorded.about_append earlier new result
  known event member := by
    rw [List.map_append, List.mem_append]
    rcases List.mem_append.1 member with earlier | here
    · exact .inl (recorded.known event earlier)
    · exact (recorded.path_of_mem_add here).symm.imp_right fun same =>
        List.mem_singleton.2 same
  balance := recorded.balance_add path result

/-- **Several more readings** keep the record. -/
theorem addAll (recorded : Recorded readings l told) {more : List Reading}
    (distinct : ((readings ++ more).map Prod.fst).Nodup) :
    Recorded (readings ++ more) (l.addAll more).1 (told ++ (l.addAll more).2) := by
  induction more generalizing readings l told with
  | nil =>
    rw [Library.addAll, List.append_nil, List.append_nil]
    exact recorded
  | cons reading more ih =>
    obtain ⟨path, result⟩ := reading
    have new : path ∉ readings.map Prod.fst := by
      rw [List.map_append, List.map_cons, List.nodup_middle, List.nodup_cons] at distinct
      exact fun member => distinct.1 (List.mem_append_left _ member)
    rw [List.append_cons] at distinct ⊢
    have step := ih (recorded.add new result) distinct
    rw [List.append_assoc told] at step
    exact step

/-- A definition stays in the library unless a later reading declares its name. -/
theorem get?_eq_some_iff (recorded : Recorded readings l told) {before after : List Reading}
    {path : Path} {d : Definition} (split : readings = before ++ (path, .ok d) :: after) :
    l.get? d.name = some ⟨d, path⟩ ↔ after.findSome? (loadedAs? d.name) = none := by
  have last := recorded.stored d.name
  rw [split, List.reverse_append, List.reverse_cons, List.findSome?_append,
    List.findSome?_append, List.findSome?_singleton, loadedAs?, if_pos rfl] at last
  rw [last, ← findSome?_reverse_eq_none_iff]
  cases found : after.reverse.findSome? (loadedAs? d.name) with
  | none => simp
  | some entry =>
    obtain ⟨other, member, made⟩ := List.exists_of_findSome?_eq_some found
    obtain ⟨rfl, _⟩ := loadedAs?_eq_some_iff.1 made
    have apart : path ∉ after.map Prod.fst := (recorded.apart split).2
    constructor
    · intro same
      cases same
      exact absurd (List.mem_map_of_mem (List.mem_reverse.1 member)) apart
    · intro none
      contradiction

end Recorded

/-- The record of all readings, from the first on. -/
theorem recorded_addAll {readings : List Reading} (distinct : (readings.map Prod.fst).Nodup) :
    Recorded readings (empty.addAll readings).1 (empty.addAll readings).2 :=
  Recorded.nothing.addAll distinct

theorem addAll_cons (l : Library) (reading : Reading) (more : List Reading) :
    l.addAll (reading :: more) =
      (((l.add reading.1 reading.2).1.addAll more).1,
        (l.add reading.1 reading.2).2 ++ ((l.add reading.1 reading.2).1.addAll more).2) :=
  rfl

/-- Reading on from where other readings ended. -/
theorem addAll_append (l : Library) (first second : List Reading) :
    l.addAll (first ++ second) =
      (((l.addAll first).1.addAll second).1,
        (l.addAll first).2 ++ ((l.addAll first).1.addAll second).2) := by
  induction first generalizing l with
  | nil => rfl
  | cons reading first ih =>
    rw [List.cons_append, addAll_cons, addAll_cons, ih, List.append_assoc]

/-- **An unusable file** changes nothing but the events about it. -/
theorem addAll_unusable (l : Library) (before after : List Reading) (path : Path)
    (fault : DefinitionFault) :
    ∃ earlier later,
      (l.addAll (before ++ (path, .error fault) :: after)) =
          ((l.addAll (before ++ after)).1,
            earlier ++ .skipped path (.unusable fault) :: later) ∧
        (l.addAll (before ++ after)).2 = earlier ++ later := by
  refine ⟨(l.addAll before).2, ((l.addAll before).1.addAll after).2, ?_, ?_⟩
  · rw [addAll_append, addAll_append]
    rfl
  · rw [addAll_append]

end Library

end ShaderChain
