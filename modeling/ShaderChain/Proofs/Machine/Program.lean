import ShaderChain.Machine.Launch
import ShaderChain.Proofs.Path

/-!
# The file that an invocation starts

A machine finds the program of an invocation from the directory of the
invocation: a command with a slash leads to its file from there, and a bare name
is looked for in the directories of the search path. `Files.findStart` keeps the
path of the file besides its program, and finds the same programs
(`Files.findProgram_eq`), so that `Machine.Starts` can say at which location the
file is that an invocation starts.

An absolute path leads to the same place from every directory
(`Files.locate_of_isAbsolute`). A bare name is found in the first directory with
a file of that name, provided that the files before it are merely missing
(`Files.searchStart_eq_ok`).
-/

set_option autoImplicit false

namespace ShaderChain

/-! ## Absolute paths -/

namespace Files

/-- An absolute path leads to the same place from every directory. -/
theorem locate_of_isAbsolute (fs : Files) (first second : Location) {p : Path}
    (absolute : p.isAbsolute = true) : fs.locate first p = fs.locate second p := by
  rw [locate, locate, absolute]
  rfl

theorem status_of_isAbsolute (fs : Files) (first second : Location) {p : Path}
    (absolute : p.isAbsolute = true) : fs.status first p = fs.status second p := by
  rw [status, status, fs.locate_of_isAbsolute first second absolute]

/-! ## Starting a file -/

/-- The path of a name in a directory of a search path. No text stands for the directory that the
search is made in. -/
def placed (dir name : Path) : Path :=
  if dir.text.isEmpty then Path.child ⟨"."⟩ name.text else dir.join name

/-- The first path under a name in some directories that leads to a program, and the program. -/
def searchStart (fs : Files) (directory : Location) (name : Path) (refusal : IoError) :
    List Path → Except IoError (Path × Program)
  | [] => .error refusal
  | dir :: rest =>
    match fs.program directory (placed dir name) with
    | .ok program => .ok (placed dir name, program)
    | .error cause =>
      if cause = .permissionDenied then fs.searchStart directory name cause rest
      else if cause = .notFound || cause = .notDirectory then
        fs.searchStart directory name refusal rest
      else .error cause

/-- The path that a command leads to, and the program there. -/
def findStart (fs : Files) (directory : Location) (searchPath : List Path) (command : Path) :
    Except IoError (Path × Program) :=
  if command.text.toList.contains '/' then (fs.program directory command).map (command, ·)
  else if command.text.isEmpty then .error .notFound
  else fs.searchStart directory command .notFound searchPath

theorem searchProgram_eq (fs : Files) (directory : Location) (name : Path) (refusal : IoError)
    (dirs : List Path) :
    fs.searchProgram directory name refusal dirs =
      (fs.searchStart directory name refusal dirs).map Prod.snd := by
  induction dirs generalizing refusal with
  | nil => rfl
  | cons dir rest ih =>
    rw [searchProgram, searchStart]
    change (match fs.program directory (placed dir name) with | .ok _ => _ | .error _ => _) = _
    cases fs.program directory (placed dir name) with
    | ok program => rfl
    | error cause =>
      dsimp only
      rw [ih, ih]
      split
      · rfl
      · split
        · rfl
        · rfl

/-- The program of a command is the one at the path that the command leads to. -/
theorem findProgram_eq (fs : Files) (directory : Location) (searchPath : List Path)
    (command : Path) :
    fs.findProgram directory searchPath command =
      (fs.findStart directory searchPath command).map Prod.snd := by
  rw [findProgram, findStart]
  split
  · cases fs.program directory command with
    | ok program => rfl
    | error cause => rfl
  · split
    · rfl
    · exact fs.searchProgram_eq directory command .notFound searchPath

/-- Whether looking a path up shows what is there, or that nothing is. -/
def Answers (fs : Files) (directory : Location) (p : Path) : Prop :=
  ∀ cause, fs.status directory p = .error cause → cause = .notFound ∨ cause = .notDirectory

/-- Where there is no file, a search for a program goes on. -/
theorem program_of_not_isFile {fs : Files} {directory : Location} {p : Path}
    (answers : fs.Answers directory p) (none : fs.isFile directory p = false) :
    ∃ cause, fs.program directory p = .error cause ∧
      (cause = .permissionDenied ∨ cause = .notFound ∨ cause = .notDirectory) := by
  rw [isFile] at none
  rw [program, programWithin]
  cases status : fs.status directory p with
  | error cause => exact ⟨cause, rfl, .inr (answers cause status)⟩
  | ok entry =>
    rw [status] at none
    cases entry with
    | directory => exact ⟨.permissionDenied, rfl, .inl rfl⟩
    | sink => exact ⟨.permissionDenied, rfl, .inl rfl⟩
    | file content executable => contradiction
    | utility => contradiction

/-- **A bare name leads to the first file of that name**, wherever the search is made: the
directories of the search path are absolute, and no look-up in them fails for any other reason than
that there is nothing. -/
theorem searchStart_eq_ok {fs : Files} {origin directory : Location} {name p : Path}
    {program : Program} {dirs : List Path} (refusal : IoError)
    (absolute : ∀ dir ∈ dirs, dir.isAbsolute = true)
    (answers : ∀ dir ∈ dirs, fs.Answers origin (dir.join name))
    (first : (dirs.map (·.join name)).find? (fs.isFile origin) = some p)
    (startable : fs.program directory p = .ok program) :
    fs.searchStart directory name refusal dirs = .ok (p, program) := by
  induction dirs generalizing refusal with
  | nil => contradiction
  | cons dir rest ih =>
    obtain ⟨absoluteHere, absolute⟩ := List.forall_mem_cons.1 absolute
    obtain ⟨answersHere, answers⟩ := List.forall_mem_cons.1 answers
    have path : placed dir name = dir.join name := by
      rw [placed, Path.text_ne_empty_of_isAbsolute absoluteHere]
      rfl
    have same : fs.status origin (dir.join name) = fs.status directory (dir.join name) :=
      fs.status_of_isAbsolute origin directory (Path.isAbsolute_join name absoluteHere)
    rw [List.map_cons, List.find?_cons, isFile, same, ← isFile] at first
    rw [Answers, same] at answersHere
    rw [searchStart, path]
    cases here : fs.isFile directory (dir.join name) with
    | true =>
      rw [here] at first
      cases first
      rw [startable]
    | false =>
      rw [here] at first
      obtain ⟨cause, refused, passed⟩ := program_of_not_isFile answersHere here
      have later := fun refusal => ih refusal absolute answers first
      rw [refused]
      dsimp only
      rw [later, later]
      rcases passed with rfl | rfl | rfl
      · rfl
      · rfl
      · rfl

/-- A file is at a location. -/
theorem exists_locate_of_isFile {fs : Files} {directory : Location} {p : Path}
    (file : fs.isFile directory p = true) : ∃ l, fs.locate directory p = .ok l := by
  rw [isFile, status] at file
  cases place : fs.locate directory p with
  | ok l => exact ⟨l, rfl⟩
  | error cause =>
    rw [place] at file
    contradiction

/-- A path that leads somewhere has no character zero in it. -/
theorem hasZero_of_locate {fs : Files} {directory l : Location} {p : Path}
    (place : fs.locate directory p = .ok l) : Machine.hasZero p.text = false := by
  rw [Machine.hasZero, Bool.eq_false_iff]
  intro zero
  rw [locate, if_pos zero] at place
  contradiction

/-- No file is at a path that asks for a directory. -/
theorem isFile_of_asksForDirectory {fs : Files} {directory : Location} {p : Path}
    (asks : asksForDirectory p = true) : fs.isFile directory p = false := by
  rw [isFile, status, asks]
  cases fs.locate directory p with
  | error cause => rfl
  | ok l =>
    cases at_ : fs.at? l with
    | none => simp only [at_]
    | some entry =>
      cases entry with
      | directory => simp only [at_]
      | file content executable => simp only [at_, if_true]
      | utility => simp only [at_, if_true]
      | sink => simp only [at_, if_true]

end Files

/-! ## Machines -/

namespace Machine

/-- Whether an invocation starts the file at a location. -/
def Starts (machine : Machine) (invocation : Invocation) (file : Location) : Prop :=
  ∃ directory path program,
    machine.find invocation = .ok (program, directory) ∧
      machine.files.findStart directory machine.searchPath invocation.program =
        .ok (path, program) ∧
      machine.files.locate directory path = .ok file

/-- An invocation starts what its command leads to. -/
theorem starts_of_findStart {machine : Machine} {invocation : Invocation}
    {directory file : Location} {path : Path} {program : Program}
    (inside : machine.startDirectory invocation.directory = .ok directory)
    (plainProgram : hasZero invocation.program.text = false)
    (plain : invocation.arguments.any hasZero = false)
    (found : machine.files.findStart directory machine.searchPath invocation.program =
      .ok (path, program))
    (place : machine.files.locate directory path = .ok file) : machine.Starts invocation file := by
  have plainDirectory : hasZero invocation.directory.text = false := by
    rw [startDirectory] at inside
    cases status : machine.files.status machine.directory invocation.directory with
    | error cause =>
      rw [status] at inside
      contradiction
    | ok entry =>
      rw [status] at inside
      cases entry with
      | directory => exact Files.hasZero_of_locate inside
      | file content executable => contradiction
      | utility => contradiction
      | sink => contradiction
  have finds : machine.find invocation = .ok (program, directory) := by
    rw [find, List.any_cons, List.any_cons, plainProgram, plainDirectory, plain, inside]
    dsimp only
    rw [Files.findProgram_eq, found]
    rfl
  exact ⟨directory, path, program, finds, found, place⟩

theorem outcome_ne_refused (result : Except Shell.Stop Unit) (s : Shell.Session) (cause : IoError) :
    outcome result s ≠ .refused cause := by
  cases result with
  | ok value => exact nofun
  | error stop =>
    cases stop <;> exact nofun

/-- A launch that starts a file is not refused. -/
theorem Starts.launch_ne_refused {machine : Machine} {invocation : Invocation} {file : Location}
    (starts : machine.Starts invocation file) (cause : IoError) :
    ((launch invocation).run machine).1 ≠ .refused cause := by
  obtain ⟨directory, path, program, finds, _, _⟩ := starts
  rw [launch, StateT.run_bind, StateT.run_get, pure_bind, finds]
  dsimp only
  split
  · exact nofun
  · exact outcome_ne_refused _ _ cause

end Machine

end ShaderChain
