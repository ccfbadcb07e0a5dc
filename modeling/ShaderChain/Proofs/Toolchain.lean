import ShaderChain.Adapter.Builtin
import ShaderChain.Proofs.Host
import ShaderChain.Proofs.Machine.Program

/-!
# Located programs

`Toolchain.locate` says where the program of a tool is, seen from the working
directory. A step starts the program in a workspace, so what it starts is seen
from there. Both see the same file when no path on the way depends on a
directory: the directory of programs, the program configured for the tool and
the directories of the search path are absolute, or the program is a bare name
(`Toolchain.Anchored`). Then the file that is located is the one that starts
(`located_program_starts`).

A relative directory of programs breaks this: the program is located, and no
step can start it (`relative_program_never_starts`).
-/

set_option autoImplicit false

namespace ShaderChain

/-! ## What is located on a machine -/

namespace Machine

/-- The directories where a machine looks programs up; none without a search path. -/
def programDirectories (machine : Machine) : List Path :=
  ((machine.environment.get? "PATH").map Files.searchDirectories).getD []

/-- Where the program of a tool is on a machine. -/
def programOf? (machine : Machine) (t : Toolchain) (tool usual : String) : Option Path :=
  let program := t.executable tool usual
  if 1 < program.components.length || program.isAbsolute then
    if machine.files.isFile machine.directory program then some program else none
  else
    (machine.programDirectories.map (·.join program)).find? (machine.files.isFile machine.directory)

end Machine

namespace Toolchain

variable (launch : Invocation → StateM Machine LaunchOutcome) (machine : Machine)

theorem run_firstFile? (name : Path) (dirs : List Path) :
    (firstFile? (Machine.host launch) name dirs).run machine =
      ((dirs.map (·.join name)).find? (machine.files.isFile machine.directory), machine) := by
  induction dirs with
  | nil => rfl
  | cons dir rest ih =>
    rw [firstFile?, List.map_cons, List.find?_cons]
    change (if machine.files.isFile machine.directory (dir.join name) = true then _ else
      (firstFile? (Machine.host launch) name rest) : StateM Machine (Option Path)).run machine = _
    cases machine.files.isFile machine.directory (dir.join name) with
    | true => rfl
    | false => exact ih

/-- Locating a program changes nothing. -/
theorem run_locate (t : Toolchain) (tool usual : String) :
    (t.locate (Machine.host launch) tool usual).run machine =
      (machine.programOf? t tool usual, machine) := by
  rw [locate, Machine.programOf?]
  split
  · rfl
  · have dirs : (searchPath (Machine.host launch)).run machine =
        (machine.programDirectories, machine) := by
      have got : ((Machine.host launch).environment? "PATH").run machine =
          (machine.environment.get? "PATH", machine) := rfl
      rw [Machine.programDirectories, searchPath, run_bind_of got]
      cases machine.environment.get? "PATH" with
      | none => rfl
      | some text => rfl
    rw [StateT.run_bind, dirs]
    exact run_firstFile? launch machine _ _

/-- What is configured for a tool leads to the same place from every directory. -/
structure Anchored (t : Toolchain) (tool : String) (machine : Machine) : Prop where
  /-- The directory of programs is absolute. -/
  directory : ∀ dir ∈ t.binariesDir, dir.isAbsolute = true
  /-- The program of the tool is absolute or a bare name. -/
  configured : ∀ program ∈ t.executables.get? tool,
    program.isAbsolute = true ∨ '/' ∉ program.text.toList
  /-- The directories of the search path are absolute. -/
  searched : ∀ dir ∈ machine.programDirectories, dir.isAbsolute = true

/-- The program of a tool is absolute or a bare name. -/
theorem Anchored.executable {t : Toolchain} {tool usual : String} {machine : Machine}
    (anchored : t.Anchored tool machine) (bare : '/' ∉ usual.toList) :
    (t.executable tool usual).isAbsolute = true ∨ '/' ∉ (t.executable tool usual).text.toList := by
  rw [Toolchain.executable]
  cases configured : t.executables.get? tool with
  | some program => exact anchored.configured program configured
  | none =>
    cases directory : t.binariesDir with
    | some dir => exact .inl (Path.isAbsolute_join _ (anchored.directory dir directory))
    | none => exact .inr bare

end Toolchain

/-- The usual names of the built-in programs are bare. -/
theorem Adapter.bare_of_mem_programs {tool usual : String}
    (builtin : (tool, usual) ∈ Adapter.programs) : '/' ∉ usual.toList := by
  have all : ∀ entry ∈ Adapter.programs, '/' ∉ entry.2.toList := by decide
  exact all _ builtin

/-! ## What starts -/

namespace Machine

variable {machine : Machine} {t : Toolchain} {tool usual : String} {p : Path} {program : Program}
  {directory : Location}

/-- An absolute program is located where it is. -/
theorem programOf?_of_isAbsolute (absolute : (t.executable tool usual).isAbsolute = true)
    (located : machine.programOf? t tool usual = some p) :
    t.executable tool usual = p ∧ machine.files.isFile machine.directory p = true := by
  rw [programOf?, absolute, Bool.or_true, if_pos rfl] at located
  split at located
  case isTrue file =>
    cases located
    exact ⟨rfl, file⟩
  case isFalse => contradiction

/-- A bare name is located in the search path. -/
theorem programOf?_of_noSlash (bare : '/' ∉ (t.executable tool usual).text.toList) :
    machine.programOf? t tool usual =
      (machine.programDirectories.map (·.join (t.executable tool usual))).find?
        (machine.files.isFile machine.directory) := by
  have few : ¬ 1 < (t.executable tool usual).components.length :=
    Nat.not_lt.2 (Path.components_of_noSlash bare)
  rw [programOf?, Path.isAbsolute_of_noSlash bare, decide_eq_false few]
  rfl

/-- Programs are looked up where they are looked for. -/
theorem searchPath_of_programDirectories {dir : Path} (member : dir ∈ machine.programDirectories) :
    machine.searchPath = machine.programDirectories := by
  rw [programDirectories] at member ⊢
  rw [searchPath]
  cases path : machine.environment.get? "PATH" with
  | none =>
    rw [path] at member
    cases member
  | some text => rfl

/-- An absolute program that is located starts, wherever the invocation is made. -/
theorem findStart_of_isAbsolute (absolute : (t.executable tool usual).isAbsolute = true)
    (located : machine.programOf? t tool usual = some p)
    (startable : machine.files.program directory p = .ok program) :
    machine.files.findStart directory machine.searchPath (t.executable tool usual) =
        .ok (p, program) ∧
      p.isAbsolute = true ∧ machine.files.isFile machine.directory p = true ∧
      hasZero (t.executable tool usual).text = false := by
  obtain ⟨same, file⟩ := programOf?_of_isAbsolute absolute located
  obtain ⟨l, place⟩ := Files.exists_locate_of_isFile file
  rw [same] at absolute ⊢
  have slash : p.text.toList.contains '/' = true := by
    rw [Path.isAbsolute, beq_iff_eq] at absolute
    exact List.contains_iff_mem.2 (List.mem_of_mem_head? absolute)
  refine ⟨?_, absolute, file, Files.hasZero_of_locate place⟩
  rw [Files.findStart, if_pos slash, startable]
  rfl

/-- A bare name whose program is located starts it, wherever the invocation is made. -/
theorem findStart_of_noSlash (bare : '/' ∉ (t.executable tool usual).text.toList)
    (searched : ∀ dir ∈ machine.programDirectories, dir.isAbsolute = true)
    (answers : ∀ dir ∈ machine.programDirectories,
      machine.files.Answers machine.directory (dir.join (t.executable tool usual)))
    (located : machine.programOf? t tool usual = some p)
    (startable : machine.files.program directory p = .ok program) :
    machine.files.findStart directory machine.searchPath (t.executable tool usual) =
        .ok (p, program) ∧
      p.isAbsolute = true ∧ machine.files.isFile machine.directory p = true ∧
      hasZero (t.executable tool usual).text = false := by
  rw [programOf?_of_noSlash bare] at located
  have file : machine.files.isFile machine.directory p = true := List.find?_some located
  obtain ⟨l, place⟩ := Files.exists_locate_of_isFile file
  obtain ⟨dir, member, joined⟩ := List.mem_map.1 (List.mem_of_find?_eq_some located)
  have absolute : dir.isAbsolute = true := searched dir member
  have noSlash : ¬ (t.executable tool usual).text.toList.contains '/' = true := fun slash =>
    bare (List.contains_iff_mem.1 slash)
  have nonempty : ¬ (t.executable tool usual).text.isEmpty = true := by
    intro empty
    have none : machine.files.isFile machine.directory p = false := by
      refine Files.isFile_of_asksForDirectory ?_
      rw [← joined, Files.asksForDirectory, Path.getLast?_join_of_isEmpty absolute empty]
      rfl
    rw [file] at none
    contradiction
  refine ⟨?_, joined ▸ Path.isAbsolute_join _ absolute, file, ?_⟩
  · rw [Files.findStart, if_neg noSlash, if_neg nonempty, searchPath_of_programDirectories member]
    exact Files.searchStart_eq_ok .notFound searched answers located startable
  · obtain ⟨front, text⟩ := Path.exists_text_join dir (t.executable tool usual)
    have plain := Files.hasZero_of_locate place
    rw [← joined, text, hasZero, String.toList_append, List.contains_append,
      Bool.or_eq_false_iff] at plain
    exact plain.2

/-- What is located starts, wherever the invocation is made. -/
theorem findStart_of_programOf? (anchored : t.Anchored tool machine) (bare : '/' ∉ usual.toList)
    (answers : ∀ dir ∈ machine.programDirectories,
      machine.files.Answers machine.directory (dir.join (t.executable tool usual)))
    (located : machine.programOf? t tool usual = some p)
    (startable : machine.files.program directory p = .ok program) :
    machine.files.findStart directory machine.searchPath (t.executable tool usual) =
        .ok (p, program) ∧
      p.isAbsolute = true ∧ machine.files.isFile machine.directory p = true ∧
      hasZero (t.executable tool usual).text = false := by
  rcases anchored.executable bare with absolute | bareProgram
  · exact findStart_of_isAbsolute absolute located startable
  · exact findStart_of_noSlash bareProgram anchored.searched answers located startable

end Machine

/-- **The program that is located for a built-in tool is the one that starts**, in whatever
directory: what is configured for the tool is anchored, the look-ups in the search path are
answered, and the program can be started. -/
theorem located_program_starts {t : Toolchain} {machine : Machine} {tool usual : String}
    {p ws : Path} {program : Program} {directory : Location} {arguments : List String}
    (builtin : (tool, usual) ∈ Adapter.programs) (anchored : t.Anchored tool machine)
    (answers : ∀ dir ∈ machine.programDirectories,
      machine.files.Answers machine.directory (dir.join (t.executable tool usual)))
    (located : ((t.locate Machine.scriptHost tool usual).run machine).1 = some p)
    (inside : machine.startDirectory ws = .ok directory)
    (plain : arguments.any Machine.hasZero = false)
    (startable : machine.files.program directory p = .ok program) :
    ∃ file, machine.files.locate machine.directory p = .ok file ∧
      machine.Starts ⟨t.executable tool usual, arguments, ws, t.limit⟩ file ∧
      ∀ cause, ((Machine.scriptHost.launch
        ⟨t.executable tool usual, arguments, ws, t.limit⟩).run machine).1 ≠ .refused cause := by
  rw [Machine.scriptHost, Toolchain.run_locate] at located
  obtain ⟨found, absolute, isFile, plainProgram⟩ := Machine.findStart_of_programOf? anchored
    (Adapter.bare_of_mem_programs builtin) answers located startable
  obtain ⟨file, place⟩ := Files.exists_locate_of_isFile isFile
  have there : machine.files.locate directory p = .ok file :=
    machine.files.locate_of_isAbsolute _ _ absolute ▸ place
  have starts : machine.Starts ⟨t.executable tool usual, arguments, ws, t.limit⟩ file :=
    Machine.starts_of_findStart inside plainProgram plain found there
  exact ⟨file, place, starts, starts.launch_ne_refused⟩

/-! ## A directory of programs -/

/-- A script that prints a line. -/
def Files.report : Bytes := Text.encode "#!/bin/sh\necho report\n"

/-- A machine with the script in a directory below the working directory. -/
def Machine.withMalioc : Machine where
  files := ⟨[(⟨["bin"]⟩, .directory), (⟨["bin", "sh"]⟩, .utility), (⟨["tmp"]⟩, .directory),
    (⟨["work"]⟩, .directory), (⟨["work", "bin"]⟩, .directory),
    (⟨["work", "bin", "malioc"]⟩, .file Files.report true)]⟩
  directory := ⟨["work"]⟩
  environment := .empty
  workspaces := 0

/-- The script can be started where it is seen. -/
theorem Machine.program_malioc {directory : Location} {p : Path}
    (script : Machine.withMalioc.files.status directory p = .ok (.file Files.report true)) :
    ∃ program, Machine.withMalioc.files.program directory p = .ok program := by
  have interpreter : Files.interpreter? Files.report = some (⟨"/bin/sh"⟩, []) := by decide +kernel
  have shell : Machine.withMalioc.files.programWithin directory 4 ⟨"/bin/sh"⟩ = .ok ⟨"sh", []⟩ := rfl
  rw [Files.program, Files.programWithin, script]
  dsimp only
  rw [interpreter]
  dsimp only
  rw [shell]
  exact ⟨_, rfl⟩

/-- The toolchain whose programs are in a directory. -/
def Toolchain.inDirectory (dir : Path) : Toolchain :=
  (ofLimit (.ofSeconds 30)).withBinariesDir dir

/-- From an absolute directory, the program is located and starts. -/
theorem located_program_starts_malioc :
    let t := Toolchain.inDirectory ⟨"/work/bin"⟩
    let invocation : Invocation := ⟨t.executable "mali" "malioc", ["--core"], ⟨"/tmp"⟩, t.limit⟩
    ∃ file, Machine.withMalioc.files.locate ⟨["work"]⟩ ⟨"/work/bin/malioc"⟩ = .ok file ∧
      Machine.withMalioc.Starts invocation file ∧
      ∀ cause,
        ((Machine.scriptHost.launch invocation).run Machine.withMalioc).1 ≠ .refused cause := by
  have builtin : ("mali", "malioc") ∈ Adapter.programs := by decide
  have anchored : (Toolchain.inDirectory ⟨"/work/bin"⟩).Anchored "mali" .withMalioc := by
    refine ⟨fun dir configured => ?_, nofun, nofun⟩
    cases configured
    rfl
  have located : (((Toolchain.inDirectory ⟨"/work/bin"⟩).locate Machine.scriptHost "mali"
      "malioc").run .withMalioc).1 = some ⟨"/work/bin/malioc"⟩ := by
    rw [Machine.scriptHost, Toolchain.run_locate]
    rfl
  have inside : Machine.withMalioc.startDirectory ⟨"/tmp"⟩ = .ok ⟨["tmp"]⟩ := rfl
  have plain : ["--core"].any Machine.hasZero = false := by decide
  have script : Machine.withMalioc.files.status ⟨["tmp"]⟩ ⟨"/work/bin/malioc"⟩ =
      .ok (.file Files.report true) := rfl
  obtain ⟨_, startable⟩ := Machine.program_malioc script
  exact located_program_starts builtin anchored nofun located inside plain startable

/-- **A relative directory of programs**: the program is located there and every file can be
started, but in its workspace an invocation starts nothing. -/
theorem relative_program_never_starts :
    let t := Toolchain.inDirectory ⟨"bin"⟩
    let machine := Machine.withMalioc
    ((t.locate Machine.scriptHost "mali" "malioc").run machine).1 = some ⟨"bin/malioc"⟩ ∧
      machine.files.locate machine.directory ⟨"bin/malioc"⟩ = .ok ⟨["work", "bin", "malioc"]⟩ ∧
      (∃ program, machine.files.program machine.directory ⟨"bin/malioc"⟩ = .ok program) ∧
      ∃ ws opened, machine.openWorkspace = (.ok ws, opened) ∧
        opened.find ⟨t.executable "mali" "malioc", [], ws, t.limit⟩ = .error .notFound ∧
        ¬ ∃ file, opened.Starts ⟨t.executable "mali" "malioc", [], ws, t.limit⟩ file := by
  have located : (((Toolchain.inDirectory ⟨"bin"⟩).locate Machine.scriptHost "mali" "malioc").run
      .withMalioc).1 = some ⟨"bin/malioc"⟩ := by
    rw [Machine.scriptHost, Toolchain.run_locate]
    rfl
  have script : Machine.withMalioc.files.status ⟨["work"]⟩ ⟨"bin/malioc"⟩ =
      .ok (.file Files.report true) := rfl
  have refused : Machine.withMalioc.openWorkspace.2.find
      ⟨⟨"bin/malioc"⟩, [], ⟨"/tmp/shaderpipe-000000"⟩, .ofSeconds 30⟩ = .error .notFound := rfl
  refine ⟨located, rfl, Machine.program_malioc script, ⟨"/tmp/shaderpipe-000000"⟩,
    Machine.withMalioc.openWorkspace.2, rfl, refused, ?_⟩
  intro ⟨file, directory, path, program, finds, _⟩
  exact nomatch refused.symm.trans finds

end ShaderChain
