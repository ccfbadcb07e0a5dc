import ShaderChain.Machine.State
import ShaderChain.Proofs.Host

/-!
# Files of a machine

On a machine whose tree has only directories and files, distinct names in a
directory are distinct files, and reading a file gives what was written to it
last (`Machine.keepsFiles`, `Machine.keepsContent`).

A path that leads somewhere leads there through directories. Writing a file and
making directories take none of these away, so the path leads to the same place
afterwards (`Files.locate_of_keepsDirectories`). The paths of all names in a
directory lead to the places of the names in one directory, which may have been
reached in another way (`Files.locate_child`).
-/

set_option autoImplicit false

namespace ShaderChain

namespace Files

/-- Whether there are only directories and files. -/
def Plain (fs : Files) : Prop :=
  ∀ e ∈ fs.entries, e.2 = .directory ∨ ∃ content executable, e.2 = .file content executable

theorem Plain.put {fs : Files} (plain : fs.Plain) (l : Location) {entry : Entry}
    (kept : entry = .directory ∨ ∃ content executable, entry = .file content executable) :
    (fs.put l entry).Plain := by
  intro e member
  rcases List.mem_cons.1 member with rfl | other
  · exact kept
  · exact plain e (List.mem_filter.1 other).1

theorem Plain.at? {fs : Files} (plain : fs.Plain) {l : Location} {entry : Entry}
    (here : fs.at? l = some entry) :
    entry = .directory ∨ ∃ content executable, entry = .file content executable := by
  rw [Files.at?] at here
  split at here
  · cases here
    exact .inl rfl
  · obtain ⟨before, after, split, _⟩ := List.lookup_eq_some_iff.1 here
    exact plain (l, entry) (split ▸ List.mem_append_right _ List.mem_cons_self)

/-- Whether all directories of one tree are directories of another. -/
def KeepsDirectories (fs gs : Files) : Prop :=
  ∀ l, fs.at? l = some .directory → gs.at? l = some .directory

/-- Parts that lead somewhere go on from where the first of them leads. With the directories that
are there, the first part leads to the same place, whatever comes after it. -/
theorem follow_cons_eq_ok {fs : Files} {start l : Location} {part : String} {rest : List String}
    (more : rest ≠ []) (leads : fs.follow start (part :: rest) = .ok l) :
    ∃ next, fs.follow start [part] = .ok next ∧ fs.follow next rest = .ok l ∧
      ∀ gs, fs.KeepsDirectories gs → ∀ others, others ≠ [] →
        gs.follow start (part :: others) = gs.follow next others := by
  have noEnd {others : List String} (more : others ≠ []) : others.isEmpty = false :=
    List.isEmpty_eq_false_iff.2 more
  rw [follow] at leads
  split at leads
  case isTrue current =>
    refine ⟨start, ?_, leads, fun gs _ others _ => ?_⟩
    · rw [follow, if_pos current, follow]
    · rw [follow, if_pos current]
  case isFalse notCurrent =>
    split at leads
    case isTrue up =>
      refine ⟨start.parent, ?_, leads, fun gs _ others _ => ?_⟩
      · rw [follow, if_neg notCurrent, if_pos up, follow]
      · rw [follow, if_neg notCurrent, if_pos up]
    case isFalse notUp =>
      split at leads
      case isTrue => cases leads
      case isFalse short =>
        rw [if_neg (ne_true_of_eq_false (noEnd more))] at leads
        cases here : fs.at? (start.child part) with
        | none =>
          rw [here] at leads
          cases leads
        | some entry =>
          rw [here] at leads
          cases entry with
          | directory =>
            refine ⟨start.child part, ?_, leads, fun gs keeps others more => ?_⟩
            · rw [follow, if_neg notCurrent, if_neg notUp, if_neg short]
              rfl
            · rw [follow, if_neg notCurrent, if_neg notUp, if_neg short,
                if_neg (ne_true_of_eq_false (noEnd more)), keeps _ here]
          | file content executable => cases leads
          | utility => cases leads
          | sink => cases leads

/-- Parts that lead somewhere lead there through where the first of them lead, and so do others
behind these, also with more directories. -/
theorem follow_append_eq_ok {fs : Files} {start l : Location} {init rest : List String}
    (more : rest ≠ []) (leads : fs.follow start (init ++ rest) = .ok l) :
    ∃ place, fs.follow start init = .ok place ∧ fs.follow place rest = .ok l ∧
      ∀ gs, fs.KeepsDirectories gs → ∀ others, others ≠ [] →
        gs.follow start (init ++ others) = gs.follow place others := by
  induction init generalizing start with
  | nil => exact ⟨start, rfl, leads, fun _ _ _ _ => rfl⟩
  | cons part init ih =>
    have behind {others : List String} (more : others ≠ []) : init ++ others ≠ [] :=
      List.append_ne_nil_of_right_ne_nil _ more
    obtain ⟨next, one, onward, first⟩ := follow_cons_eq_ok (behind more) leads
    obtain ⟨place, whole, last, others⟩ := ih onward
    refine ⟨place, ?_, last, fun gs keeps more isMore => ?_⟩
    · cases init with
      | nil =>
        cases whole
        exact one
      | cons second init => rw [first fs (fun _ => id) _ (List.cons_ne_nil _ _), whole]
    · rw [List.cons_append, first gs keeps _ (behind isMore), others gs keeps more isMore]

/-- A single name leads to its place in the directory, unless it is too long. -/
theorem follow_name (fs : Files) (start : Location) {name : String} (isName : Path.IsName name) :
    fs.follow start [name] =
      if nameLimit < name.utf8ByteSize then .error .nameTooLong else .ok (start.child name) := by
  rw [follow, if_neg isName.notCurrent, if_neg isName.notUp]
  rfl

/-- Where a single name leads is its place in the directory. -/
theorem eq_child_of_follow {fs : Files} {start l : Location} {name : String}
    (isName : Path.IsName name) (leads : fs.follow start [name] = .ok l) :
    l = start.child name := by
  rw [follow_name fs start isName] at leads
  split at leads
  · cases leads
  · exact (Except.ok.inj leads).symm

/-- Parts that end in a name lead through directories to the place of the name in one of them. -/
theorem follow_append {fs : Files} {start l : Location} {init : List String} {name : String}
    (isName : Path.IsName name) (leads : fs.follow start (init ++ [name]) = .ok l) :
    ∃ place : Location, l = place.child name ∧
      ∀ gs, fs.KeepsDirectories gs → ∀ other, Path.IsName other →
        gs.follow start (init ++ [other]) =
          if nameLimit < other.utf8ByteSize then .error .nameTooLong
          else .ok (place.child other) := by
  obtain ⟨place, _, last, others⟩ := follow_append_eq_ok (List.cons_ne_nil _ _) leads
  refine ⟨place, eq_child_of_follow isName last, fun gs keeps other otherIsName => ?_⟩
  rw [others gs keeps _ (List.cons_ne_nil _ _), follow_name gs place otherIsName]

/-- Whether a path is spelled so that it can lead somewhere. -/
structure IsSpelled (p : Path) : Prop where
  noZero : p.text.toList.contains '\x00' = false
  nonempty : p.text.isEmpty = false
  short : p.text.utf8ByteSize ≤ pathLimit

/-- A path leads somewhere if it is spelled right, it starts in a directory, and its parts lead on
from there. -/
theorem locate_eq_ok_iff {fs : Files} {directory l : Location} {p : Path} :
    fs.locate directory p = .ok l ↔ IsSpelled p ∧
      fs.at? (if p.isAbsolute then .root else directory) = some .directory ∧
      fs.follow (if p.isAbsolute then .root else directory) p.parts = .ok l := by
  constructor
  · intro leads
    rw [locate] at leads
    split at leads
    case isTrue => cases leads
    case isFalse noZero =>
      split at leads
      case isTrue => cases leads
      case isFalse nonempty =>
        split at leads
        case isTrue => cases leads
        case isFalse short =>
          dsimp only at leads
          split at leads
          case h_1 started =>
            exact ⟨⟨eq_false_of_ne_true noZero, eq_false_of_ne_true nonempty,
              Nat.le_of_not_lt short⟩, started, leads⟩
          case h_2 => cases leads
  · rintro ⟨⟨noZero, nonempty, short⟩, started, leads⟩
    rw [locate, noZero, nonempty, if_neg Bool.false_ne_true, if_neg Bool.false_ne_true,
      if_neg (Nat.not_lt_of_le short)]
    dsimp only
    rw [started]
    exact leads

/-- A path that leads somewhere starts in a directory. -/
theorem follow_of_locate {fs : Files} {directory l : Location} {p : Path}
    (leads : fs.locate directory p = .ok l) :
    fs.at? (if p.isAbsolute then .root else directory) = some .directory ∧
      fs.follow (if p.isAbsolute then .root else directory) p.parts = .ok l :=
  (locate_eq_ok_iff.1 leads).2

/-- What leads somewhere still leads there with all the directories that are there. -/
theorem follow_of_keepsDirectories {fs gs : Files} (keeps : fs.KeepsDirectories gs)
    {start l : Location} {parts : List String} (leads : fs.follow start parts = .ok l) :
    gs.follow start parts = .ok l := by
  induction parts generalizing start with
  | nil => exact leads
  | cons part rest ih =>
    by_cases last : rest = []
    · subst last
      simpa [follow] using leads
    · obtain ⟨next, _, onward, first⟩ := follow_cons_eq_ok last leads
      rw [first gs keeps rest last]
      exact ih onward

theorem locate_of_keepsDirectories {fs gs : Files} (keeps : fs.KeepsDirectories gs)
    {directory l : Location} {p : Path} (leads : fs.locate directory p = .ok l) :
    gs.locate directory p = .ok l := by
  obtain ⟨spelled, started, follows⟩ := locate_eq_ok_iff.1 leads
  exact locate_eq_ok_iff.2 ⟨spelled, keeps _ started, follow_of_keepsDirectories keeps follows⟩

/-- The path of a name that leads somewhere leads to the place of the name in a directory, and so
do the paths of the other names, also when other files were written. -/
theorem locate_child {fs : Files} {directory l : Location} {p : Path} {name : String}
    (isName : Path.IsName name) (leads : fs.locate directory (p.child name) = .ok l) :
    ∃ place : Location, l = place.child name ∧
      ∀ gs, fs.KeepsDirectories gs → ∀ other, Path.IsName other →
        gs.locate directory (p.child other) = fs.locate directory (p.child other) ∧
          ∀ otherLocation, fs.locate directory (p.child other) = .ok otherLocation →
            otherLocation = place.child other := by
  obtain ⟨started, follows⟩ := follow_of_locate leads
  rw [p.parts_child isName] at follows
  obtain ⟨place, same, others⟩ := follow_append isName follows
  refine ⟨place, same, fun gs keeps other otherIsName => ?_⟩
  rw [p.isAbsolute_child isName, ← p.isAbsolute_child otherIsName] at started others
  have before := others fs (fun _ => id) other otherIsName
  have after := others gs keeps other otherIsName
  constructor
  · rw [locate, locate, p.parts_child otherIsName]
    dsimp only
    rw [before, after, started, keeps _ started]
  · intro otherLocation otherLeads
    obtain ⟨_, otherFollows⟩ := follow_of_locate otherLeads
    rw [p.parts_child otherIsName, before] at otherFollows
    split at otherFollows
    · cases otherFollows
    · cases otherFollows
      rfl

/-! ## Writing -/

/-- Writing a file in a plain tree puts the file where its path leads. -/
theorem write_eq_ok {fs gs : Files} (plain : fs.Plain) {directory : Location} {p : Path}
    {content : Bytes} (wrote : fs.write directory p content = .ok gs) :
    ∃ l executable, fs.locate directory p = .ok l ∧ asksForDirectory p = false ∧
      fs.at? l ≠ some .directory ∧ gs = fs.put l (.file content executable) := by
  rw [write, update] at wrote
  cases place : fs.locate directory p with
  | error cause =>
    rw [place] at wrote
    cases wrote
  | ok l =>
    rw [place] at wrote
    dsimp only at wrote
    cases here : fs.at? l with
    | none =>
      rw [here] at wrote
      dsimp only at wrote
      split at wrote
      case isTrue => cases wrote
      case isFalse asks =>
        cases wrote
        exact ⟨l, false, rfl, eq_false_of_ne_true asks, here ▸ nofun, rfl⟩
    | some entry =>
      rw [here] at wrote
      rcases plain.at? here with rfl | ⟨old, executable, rfl⟩
      · cases wrote
      · dsimp only at wrote
        split at wrote
        case isTrue => cases wrote
        case isFalse asks =>
          cases wrote
          exact ⟨l, executable, rfl, eq_false_of_ne_true asks, here ▸ nofun, rfl⟩

theorem keepsDirectories_put {fs : Files} {l : Location} (other : fs.at? l ≠ some .directory)
    (entry : Entry) : fs.KeepsDirectories (fs.put l entry) := by
  intro place here
  have distinct : l ≠ place := by
    rintro rfl
    exact other here
  rw [at?_put_of_ne fs entry distinct]
  exact here

/-- What was written to a path is read there. -/
theorem read_of_write {fs gs : Files} (plain : fs.Plain) {directory : Location} {p : Path}
    {content : Bytes} (wrote : fs.write directory p content = .ok gs) :
    gs.read directory p = .ok content := by
  obtain ⟨l, executable, leads, asks, notDirectory, rfl⟩ := write_eq_ok plain wrote
  have below : l ≠ .root := by
    rintro rfl
    exact notDirectory rfl
  have still := locate_of_keepsDirectories
    (keepsDirectories_put notDirectory (.file content executable)) leads
  rw [read, status, still]
  dsimp only
  rw [at?_put_self fs _ below]
  dsimp only
  rw [asks]
  rfl

/-- Nothing else than before is read under the names that were not written. -/
theorem read_of_write_other {fs gs : Files} (plain : fs.Plain) {directory : Location} {p : Path}
    {name : String} {content : Bytes} (isName : Path.IsName name)
    (wrote : fs.write directory (p.child name) content = .ok gs) {other : String}
    (otherIsName : Path.IsName other) (distinct : other ≠ name) :
    gs.read directory (p.child other) = fs.read directory (p.child other) := by
  obtain ⟨l, executable, leads, _, notDirectory, rfl⟩ := write_eq_ok plain wrote
  obtain ⟨place, rfl, others⟩ := locate_child isName leads
  have keeps := keepsDirectories_put notDirectory (.file content executable)
  obtain ⟨same, leadsTo⟩ := others _ keeps other otherIsName
  rw [read, read, status, status, same]
  cases otherLeads : fs.locate directory (p.child other) with
  | error cause => rfl
  | ok otherLocation =>
    have apart : place.child name ≠ otherLocation := by
      rw [leadsTo otherLocation otherLeads]
      intro joined
      have names := congrArg Location.names joined
      exact distinct (List.cons.inj (List.append_cancel_left names)).1.symm
    dsimp only
    rw [at?_put_of_ne fs _ apart]

/-! ## Making directories -/

/-- Whether all entries of one tree stand in another. -/
def Keeps (fs gs : Files) : Prop := ∀ l entry, fs.at? l = some entry → gs.at? l = some entry

theorem Keeps.refl (fs : Files) : fs.Keeps fs := fun _ _ => id

theorem Keeps.trans {fs gs hs : Files} (first : fs.Keeps gs) (second : gs.Keeps hs) :
    fs.Keeps hs :=
  fun l entry here => second l entry (first l entry here)

/-- What a path leads to is there as long as nothing goes away. -/
theorem Keeps.status_eq_ok {fs gs : Files} (keeps : fs.Keeps gs) {directory : Location} {p : Path}
    {entry : Entry} (status : fs.status directory p = .ok entry) :
    gs.status directory p = .ok entry := by
  rw [Files.status] at status ⊢
  cases leads : fs.locate directory p with
  | error cause =>
    rw [leads] at status
    cases status
  | ok l =>
    rw [leads] at status
    rw [locate_of_keepsDirectories (fun l => keeps l .directory) leads]
    cases here : fs.at? l with
    | none =>
      dsimp only at status
      rw [here] at status
      cases status
    | some held =>
      dsimp only at status ⊢
      rw [here] at status
      rw [keeps l held here]
      exact status

theorem Keeps.read_eq_ok {fs gs : Files} (keeps : fs.Keeps gs) {directory : Location} {p : Path}
    {content : Bytes} (read : fs.read directory p = .ok content) :
    gs.read directory p = .ok content := by
  rw [Files.read] at read ⊢
  cases status : fs.status directory p with
  | error cause =>
    rw [status] at read
    cases read
  | ok entry =>
    rw [status] at read
    rw [keeps.status_eq_ok status]
    exact read

/-- A directory is made where nothing stands. -/
theorem makeDirectory_eq_ok {fs gs : Files} {directory : Location} {p : Path}
    (made : fs.makeDirectory directory p = .ok gs) :
    ∃ l, fs.at? l = none ∧ gs = fs.put l .directory := by
  rw [makeDirectory] at made
  cases place : fs.locate directory p with
  | error cause =>
    rw [place] at made
    cases made
  | ok l =>
    rw [place] at made
    dsimp only at made
    split at made
    case isTrue => cases made
    case isFalse free =>
      cases made
      exact ⟨l, by simpa using free, rfl⟩

theorem keeps_of_makeDirectory {fs gs : Files} {directory : Location} {p : Path}
    (made : fs.makeDirectory directory p = .ok gs) : fs.Keeps gs := by
  obtain ⟨l, free, rfl⟩ := makeDirectory_eq_ok made
  intro place entry here
  have distinct : l ≠ place := by
    rintro rfl
    rw [free] at here
    cases here
  rw [at?_put_of_ne fs _ distinct]
  exact here

theorem Plain.makeDirectory {fs gs : Files} (plain : fs.Plain) {directory : Location} {p : Path}
    (made : fs.makeDirectory directory p = .ok gs) : gs.Plain := by
  obtain ⟨l, _, rfl⟩ := makeDirectory_eq_ok made
  exact plain.put l (.inl rfl)

/-- What making one directory preserves, making several preserves. -/
theorem of_makeDirectoriesWithin {P : Files → Prop} {directory : Location}
    (step : ∀ fs gs p, P fs → fs.makeDirectory directory p = .ok gs → P gs) {fs gs : Files}
    {depth : Nat} {p : Path} (start : P fs)
    (made : fs.makeDirectoriesWithin directory depth p = .ok gs) : P gs := by
  induction depth generalizing fs gs p with
  | zero => cases made
  | succ depth ih =>
    rw [Files.makeDirectoriesWithin] at made
    split at made
    case isTrue =>
      cases made
      exact start
    case isFalse =>
      split at made
      case h_1 whole =>
        cases made
        exact step fs _ p start whole
      case h_2 cause _ =>
        split at made
        case isTrue =>
          split at made
          case h_1 => cases made
          case h_2 parent _ =>
            split at made
            case h_1 => cases made
            case h_2 above aboveMade =>
              have aboveHolds := ih start aboveMade
              split at made
              case h_1 whole =>
                cases made
                exact step above _ p aboveHolds whole
              case h_2 =>
                split at made
                · cases made
                  exact aboveHolds
                · cases made
        case isFalse =>
          split at made
          · cases made
            exact start
          · cases made

theorem Plain.makeDirectories {fs gs : Files} (plain : fs.Plain) {directory : Location} {p : Path}
    (made : fs.makeDirectories directory p = .ok gs) : gs.Plain :=
  of_makeDirectoriesWithin (fun _ _ _ plain made => plain.makeDirectory made) plain made

theorem keeps_of_makeDirectories {fs gs : Files} {directory : Location} {p : Path}
    (made : fs.makeDirectories directory p = .ok gs) : fs.Keeps gs :=
  of_makeDirectoriesWithin (fun _ _ _ keeps made => keeps.trans (keeps_of_makeDirectory made))
    (Keeps.refl fs) made

end Files

namespace Machine

theorem run_change (operation : Files → Location → Except IoError Files) (machine : Machine) :
    (change operation).run machine =
      match operation machine.files machine.directory with
      | .ok files => (.ok (), { machine with files := files })
      | .error cause => (.error cause, machine) := by
  have got : (get : StateM Machine Machine).run machine = (machine, machine) := rfl
  rw [change, run_bind_of got]
  cases operation machine.files machine.directory with
  | error cause => rfl
  | ok files => rfl

/-- An operation that succeeds leaves the machine with the new files. -/
theorem run_change_eq_ok {operation : Files → Location → Except IoError Files}
    {machine machine' : Machine} (changed : (change operation).run machine = (.ok (), machine')) :
    ∃ files, operation machine.files machine.directory = .ok files ∧
      machine' = { machine with files := files } := by
  rw [run_change] at changed
  cases result : operation machine.files machine.directory with
  | error cause =>
    rw [result] at changed
    cases changed
  | ok files =>
    rw [result] at changed
    cases changed
    exact ⟨files, rfl, rfl⟩

variable {launch : Invocation → StateM Machine LaunchOutcome} {machine machine' : Machine}

theorem run_write_eq_ok {p : Path} {content : Bytes}
    (wrote : ((host launch).write p content).run machine = (.ok (), machine')) :
    ∃ files, machine.files.write machine.directory p content = .ok files ∧
      machine' = { machine with files := files } := by
  have changed : (change fun files directory => files.write directory p content).run machine =
      (.ok (), machine') := wrote
  exact run_change_eq_ok changed

/-- Whether directories are made or not, a plain tree stays plain and nothing goes away. -/
theorem run_makeDirectories {p : Path} {made : Except IoError Unit} (plain : machine.files.Plain)
    (ran : ((host launch).makeDirectories p).run machine = (made, machine')) :
    machine'.files.Plain ∧ machine.files.Keeps machine'.files ∧
      machine'.directory = machine.directory := by
  have changed : (change fun files directory => files.makeDirectories directory p).run machine =
      (made, machine') := ran
  rw [run_change] at changed
  cases result : machine.files.makeDirectories machine.directory p with
  | error cause =>
    rw [result] at changed
    cases changed
    exact ⟨plain, Files.Keeps.refl _, rfl⟩
  | ok files =>
    rw [result] at changed
    cases changed
    exact ⟨plain.makeDirectories result, Files.keeps_of_makeDirectories result, rfl⟩

variable (launch) in
/-- **Files are kept** on a machine that has only directories and files. -/
theorem keepsFiles (dir : Path) :
    (host launch).KeepsFiles dir fun machine => machine.files.Plain where
  makes machine machine' plain made := (run_makeDirectories plain made).1
  writes machine machine' name content plain isName wrote := by
    obtain ⟨files, result, rfl⟩ := run_write_eq_ok wrote
    obtain ⟨l, executable, _, _, _, rfl⟩ := Files.write_eq_ok plain result
    exact plain.put l (.inr ⟨content, executable, rfl⟩)
  written machine machine' name content plain isName wrote := by
    obtain ⟨files, result, rfl⟩ := run_write_eq_ok wrote
    exact Files.read_of_write plain result
  others machine machine' name content other plain isName otherIsName distinct wrote := by
    obtain ⟨files, result, rfl⟩ := run_write_eq_ok wrote
    exact Files.read_of_write_other plain isName result otherIsName distinct

variable (launch) in
/-- **The content of a file is kept** on such a machine. -/
theorem keepsContent (path : Path) :
    (host launch).KeepsContent path fun machine => machine.files.Plain where
  makes machine machine' dir made plain ran := (run_makeDirectories plain ran).1
  kept machine machine' dir made content plain ran read := by
    obtain ⟨_, keeps, same⟩ := run_makeDirectories plain ran
    change machine'.files.read machine'.directory path = .ok content
    rw [same]
    exact keeps.read_eq_ok read
  written machine machine' content plain wrote := by
    obtain ⟨files, result, rfl⟩ := run_write_eq_ok wrote
    exact Files.read_of_write plain result

end Machine

end ShaderChain
