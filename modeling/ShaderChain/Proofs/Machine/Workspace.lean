import Mathlib.Data.List.Nodup
import Mathlib.Data.List.Perm.Subperm
import ShaderChain.Machine.State
import ShaderChain.Proofs.Host.Confinement
import ShaderChain.Proofs.Machine.Files
import ShaderChain.Proofs.Number.Decimal

/-!
# Workspaces of a machine

On a machine the work in a workspace is confined to it (`Machine.confines`), if
the programs that are run on the machine stay in the directory that they are run
in (`Machine.LaunchStays`). The rest is not assumed but follows from what the
tree of files is.

A new workspace has a place where nothing stands, since among more numbers than
there are entries one has a free place (`Machine.exists_freeNumber`). Its path
leads there as long as the tree is the same elsewhere, for every directory on the
way stood there before (`Machine.leadsTo_of_locate`). A name in the workspace leads
to a place below it, and taking the workspace away takes what is there and nothing
else.
-/

set_option autoImplicit false

namespace ShaderChain

open Location (AgreeOutside IsFree)

namespace Location

theorem holds_iff {l other : Location} : l.holds other = true ↔ l.names <+: other.names :=
  List.isPrefixOf_iff_prefix

theorem holds_child (l : Location) (name : String) : l.holds (l.child name) = true :=
  holds_iff.2 (List.prefix_append _ _)

/-- Below a name in a directory, every place has this name behind those of the directory. -/
theorem getElem?_of_child_holds {l place : Location} {name : String}
    (holds : (l.child name).holds place = true) : place.names[l.names.length]? = some name := by
  obtain ⟨rest, names⟩ := holds_iff.1 holds
  rw [← names, child, List.append_assoc, List.getElem?_append_right (Nat.le_refl _), Nat.sub_self]
  rfl

end Location

namespace Files

variable {fs : Files} {l : Location}

/-- Where the tree is free nothing stands. -/
theorem isFree_at? (below : l ≠ .root) (free : fs.isFree l = true) : IsFree l fs.at? := by
  intro place inside
  rw [at?, if_neg ?_]
  · rw [List.lookup_eq_none_iff]
    intro entry member
    have outside := List.all_eq_true.1 free entry member
    rw [bne_iff_ne]
    rintro rfl
    rw [inside] at outside
    contradiction
  · rintro rfl
    have names : l.names = [] := List.prefix_nil.1 (Location.holds_iff.1 inside)
    exact below (congrArg Location.mk names)

/-- What is put below a place changes nothing elsewhere. -/
theorem agreeOutside_put {place : Location} (inside : l.holds place = true) (entry : Entry) :
    AgreeOutside l fs.at? (fs.put place entry).at? := by
  intro other outside
  refine at?_put_of_ne fs entry ?_
  rintro rfl
  rw [inside] at outside
  contradiction

theorem isFree_removeTree (fs : Files) (l : Location) : (fs.removeTree l).isFree l = true := by
  rw [isFree, removeTree, List.all_filter]
  exact List.all_eq_true.2 fun e _ => by simp

theorem lookup_filter {p : Location → Bool} {place : Location}
    (entries : List (Location × Entry)) (kept : p place = true) :
    (entries.filter fun e => p e.1).lookup place = entries.lookup place := by
  induction entries with
  | nil => rfl
  | cons first rest ih =>
    obtain ⟨here, entry⟩ := first
    cases keeps : p here with
    | true => simp only [List.filter_cons, keeps, if_true, List.lookup_cons, ih]
    | false =>
      have passed : (place == here) = false := by
        rw [beq_eq_false_iff_ne]
        rintro rfl
        rw [kept] at keeps
        contradiction
      simp only [List.filter_cons, keeps, List.lookup_cons, passed]
      exact ih

/-- Taking away what is below a place changes nothing elsewhere. -/
theorem agreeOutside_removeTree (fs : Files) (l : Location) :
    AgreeOutside l fs.at? (fs.removeTree l).at? := by
  intro place outside
  have kept : (! l.holds place) = true := by rw [outside]; rfl
  rw [at?, at?, removeTree]
  exact congrArg _ (lookup_filter (p := fun place => ! l.holds place) fs.entries kept)

/-- Giving a file its content changes the entry at one place at most. -/
theorem update_eq_ok {gs : Files} {directory : Location} {p : Path} {change : Bytes → Bytes}
    (updated : fs.update directory p change = .ok gs) :
    gs = fs ∨ ∃ l entry, fs.locate directory p = .ok l ∧ gs = fs.put l entry := by
  rw [update] at updated
  cases leads : fs.locate directory p with
  | error cause =>
    rw [leads] at updated
    cases updated
  | ok l =>
    rw [leads] at updated
    dsimp only at updated
    split at updated
    case h_1 => cases updated
    case h_2 =>
      split at updated
      · cases updated
      · cases updated
        exact .inr ⟨l, _, rfl, rfl⟩
    case h_3 =>
      split at updated
      · cases updated
      · split at updated
        · cases updated
          exact .inr ⟨l, _, rfl, rfl⟩
        · cases updated
          exact .inl rfl

/-! ## Paths of workspaces -/

/-- A point instead of a name makes no path longer. -/
theorem isSpelled_child_current {p : Path} {name : String} (isName : Path.IsName name)
    (spelled : IsSpelled (p.child name)) : IsSpelled (p.child ".") := by
  obtain ⟨front, _, text⟩ := p.exists_front
  have inFront : ∀ {other : String}, '/' ∉ other.toList →
      (p.child other).text = String.ofList front ++ other := by
    intro other plain
    rw [← String.toList_inj, text other plain, String.toList_append, String.toList_ofList]
  obtain ⟨noZero, _, short⟩ := spelled
  rw [inFront isName.plain, String.toList_append, List.contains_append, Bool.or_eq_false_iff]
    at noZero
  rw [inFront isName.plain, String.utf8ByteSize_append] at short
  have point : (p.child ".").text = String.ofList front ++ "." := inFront (by decide)
  refine ⟨?_, ?_, ?_⟩
  · rw [point, String.toList_append, List.contains_append, noZero.1]
    rfl
  · rw [point, String.isEmpty_eq_false_iff]
    exact fun same => absurd (String.append_eq_empty_iff.1 same).2 (by decide)
  · have letter : 0 < name.utf8ByteSize :=
      Nat.pos_of_ne_zero (mt String.utf8ByteSize_eq_zero_iff.1 isName.nonempty)
    rw [point, String.utf8ByteSize_append]
    exact Nat.le_trans (Nat.add_le_add_left letter _) short

/-- The path of a name that leads somewhere leads to the place of the name in a directory, and the
directory itself is where the path with a point instead of the name leads. -/
theorem locate_child_current {directory : Location} {p : Path} {name : String}
    (isName : Path.IsName name) (leads : fs.locate directory (p.child name) = .ok l) :
    ∃ place, fs.locate directory (p.child ".") = .ok place ∧ l = place.child name := by
  obtain ⟨spelled, started, follows⟩ := locate_eq_ok_iff.1 leads
  rw [p.parts_child isName, p.isAbsolute_child isName] at follows
  rw [p.isAbsolute_child isName] at started
  obtain ⟨place, _, last, others⟩ := follow_append_eq_ok (List.cons_ne_nil _ _) follows
  refine ⟨place, locate_eq_ok_iff.2 ⟨isSpelled_child_current isName spelled, ?_, ?_⟩,
    eq_child_of_follow isName last⟩
  · rw [p.isAbsolute_child_of_plain (by decide)]
    exact started
  · rw [p.isAbsolute_child_of_plain (by decide), p.parts_child_of_plain (by decide) (by decide)]
    exact others fs (fun _ => id) ["."] (List.cons_ne_nil _ _)

/-- Where the names in a directory lead is below where the path of the directory does. -/
theorem eq_child_of_locate {directory place : Location} {p : Path} {name : String}
    (isName : Path.IsName name) (leads : fs.locate directory p = .ok l)
    (onward : fs.locate directory (p.child name) = .ok place) : place = l.child name := by
  obtain ⟨_, follows⟩ := follow_of_locate leads
  obtain ⟨_, onwards⟩ := follow_of_locate onward
  rw [p.parts_child isName, p.isAbsolute_child isName] at onwards
  obtain ⟨between, same, last, _⟩ := follow_append_eq_ok (List.cons_ne_nil _ _) onwards
  rw [follows] at same
  cases same
  exact eq_child_of_follow isName last

end Files

namespace Machine

/-! ## Places for new workspaces -/

theorem toList_workspaceName (n : Nat) : ∃ zeros, (workspaceName n).toList =
    "shaderpipe-".toList ++ (List.replicate zeros '0' ++ Nat.toDigits 10 n) := by
  refine ⟨6 - (Nat.toDigits 10 n).length, ?_⟩
  rw [workspaceName, String.toList_append]
  exact congrArg _ String.toList_ofList

/-- Zeros in front of digits do not count. -/
theorem ofDigitChars_zeros (zeros : Nat) (digits : List Char) :
    Nat.ofDigitChars 10 (List.replicate zeros '0' ++ digits) 0 = Nat.ofDigitChars 10 digits 0 := by
  induction zeros with
  | zero => rfl
  | succ zeros ih =>
    rw [List.replicate_succ, List.cons_append, Nat.ofDigitChars_cons]
    exact ih

/-- Different workspaces have different names. -/
theorem workspaceName_injective {n m : Nat} (same : workspaceName n = workspaceName m) :
    n = m := by
  obtain ⟨zeros, text⟩ := toList_workspaceName n
  obtain ⟨others, otherText⟩ := toList_workspaceName m
  rw [same, otherText] at text
  have digits := congrArg (fun cs => Nat.ofDigitChars 10 cs 0) (List.append_cancel_left text)
  rw [ofDigitChars_zeros, ofDigitChars_zeros, Nat.ofDigitChars_toDigits (by decide) (by decide),
    Nat.ofDigitChars_toDigits (by decide) (by decide)] at digits
  exact digits.symm

theorem isName_workspaceName (n : Nat) : Path.IsName (workspaceName n) := by
  obtain ⟨zeros, text⟩ := toList_workspaceName n
  have dash : '-' ∈ (workspaceName n).toList := by
    rw [text]
    exact List.mem_append_left _ (by decide)
  refine .of_mem dash (by decide) ?_
  rw [text, List.mem_append, List.mem_append]
  rintro (front | zero | digit)
  · exact absurd front (by decide)
  · exact absurd (List.eq_of_mem_replicate zero) (by decide)
  · exact absurd (Nat.isDigit_of_mem_toDigits (by decide) (by decide) digit) (by decide)

/-- If no number was found, the place of every one of them is taken. -/
theorem taken_of_freeNumber? {files : Files} {directory : Location} {more n : Nat}
    (none : freeNumber? files directory more n = none) {k : Nat} (within : k < more) :
    files.isFree (directory.child (workspaceName (n + k))) = false := by
  induction more generalizing n k with
  | zero => contradiction
  | succ more ih =>
    rw [freeNumber?] at none
    split at none
    case isTrue => cases none
    case isFalse taken =>
      cases k with
      | zero => exact eq_false_of_ne_true taken
      | succ k =>
        have later := ih none (Nat.lt_of_succ_lt_succ within)
        rwa [Nat.add_right_comm] at later

/-- **Among more numbers than there are entries one has a free place.** -/
theorem exists_freeNumber (files : Files) (directory : Location) (n : Nat) :
    ∃ found, freeNumber? files directory (files.entries.length + 1) n = some found := by
  rw [← Option.ne_none_iff_exists']
  intro none
  -- Every entry takes the place of one number at most: it tells which by one of its names.
  let numbers := (List.range (files.entries.length + 1)).map fun k => some (workspaceName (n + k))
  let takers := files.entries.map fun e => e.1.names[directory.names.length]?
  have distinct : numbers.Nodup := by
    refine List.Nodup.map (fun k other same => ?_) List.nodup_range
    exact Nat.add_left_cancel (workspaceName_injective (Option.some.inj same))
  have taken : numbers ⊆ takers := by
    intro name member
    obtain ⟨k, within, rfl⟩ := List.mem_map.1 member
    have occupied := taken_of_freeNumber? none (List.mem_range.1 within)
    obtain ⟨e, isEntry, holds⟩ := List.all_eq_false.1 occupied
    refine List.mem_map.2 ⟨e, isEntry, Location.getElem?_of_child_holds ?_⟩
    simpa using holds
  have atMost := (distinct.subperm taken).length_le
  rw [List.length_map, List.length_map, List.length_range] at atMost
  exact Nat.not_succ_le_self _ atMost

/-! ## The law of workspaces -/

/-- The path of a workspace leads to a place, and the names in it to places below, whatever there is
at the place. -/
def LeadsTo (machine : Machine) (root : Path) (l : Location) : Prop :=
  l ≠ .root ∧ ∀ files : Files, AgreeOutside l machine.files.at? files.at? →
    files.locate machine.directory root = .ok l ∧
    ∀ name place, Path.IsName name → files.locate machine.directory (root.child name) = .ok place →
      l.holds place = true

/-- The tree of files of a machine, and where workspaces are in it. -/
def view : Host.View Machine where
  tree machine := machine.files.at?
  isAt := LeadsTo

/-- Whether programs change nothing outside of the directory that they are run in. -/
def LaunchStays (launch : Invocation → StateM Machine LaunchOutcome) : Prop :=
  ∀ machine machine' invocation outcome l,
    (launch invocation).run machine = (outcome, machine') →
    machine.files.locate machine.directory invocation.directory = .ok l →
      AgreeOutside l machine.files.at? machine'.files.at? ∧ machine'.directory = machine.directory

variable {machine machine' : Machine} {root : Path} {l : Location}

/-- What changes nothing outside of a workspace leaves its path where it leads. -/
theorem LeadsTo.of_agreeOutside (leads : machine.LeadsTo root l)
    (agree : AgreeOutside l machine.files.at? machine'.files.at?)
    (same : machine'.directory = machine.directory) : machine'.LeadsTo root l := by
  refine ⟨leads.1, fun files agreeOn => ?_⟩
  rw [same]
  exact leads.2 files (agree.trans agreeOn)

theorem LeadsTo.locate (leads : machine.LeadsTo root l) :
    machine.files.locate machine.directory root = .ok l :=
  (leads.2 machine.files (.refl l _)).1

/-- **A path that leads to a free place leads there with whatever is put there,** for the
directories on the way are elsewhere. -/
theorem leadsTo_of_locate {files : Files} (below : l ≠ .root) (free : IsFree l files.at?)
    (leads : files.locate machine.directory root = .ok l)
    (agree : AgreeOutside l files.at? machine.files.at?) : machine.LeadsTo root l := by
  refine ⟨below, fun others agreeOn => ?_⟩
  have keeps : files.KeepsDirectories others := by
    intro place here
    cases inside : l.holds place with
    | true =>
      rw [free place inside] at here
      cases here
    | false => rw [agree.trans agreeOn place inside, here]
  have still := Files.locate_of_keepsDirectories keeps leads
  refine ⟨still, fun name place isName onward => ?_⟩
  rw [Files.eq_child_of_locate isName still onward]
  exact Location.holds_child l name

/-- If the path of the next workspace leads somewhere, nothing stands there. -/
theorem isFree_nextWorkspace (leads : machine.files.locate machine.directory
    machine.nextWorkspace = .ok l) : machine.files.isFree l = true := by
  obtain ⟨place, scratch, rfl⟩ := Files.locate_child_current (isName_workspaceName _) leads
  obtain ⟨found, isFound⟩ := exists_freeNumber machine.files place machine.workspaces
  have number : machine.nextNumber = found := by
    unfold nextNumber
    rw [scratch]
    dsimp only
    rw [isFound, Option.getD_some]
  rw [number]
  exact isFree_of_freeNumber? isFound

/-- A workspace is opened at a free place. -/
theorem openWorkspace_eq_ok (opened : machine.openWorkspace = (.ok root, machine')) :
    ∃ l, l ≠ .root ∧ machine.files.locate machine.directory root = .ok l ∧
      machine.files.isFree l = true ∧ machine'.files = machine.files.put l .directory ∧
      machine'.directory = machine.directory := by
  unfold openWorkspace at opened
  cases made : machine.files.makeDirectory machine.directory machine.nextWorkspace with
  | error cause =>
    rw [made] at opened
    cases opened
  | ok files =>
    rw [made] at opened
    cases opened
    rw [Files.makeDirectory] at made
    cases leads : machine.files.locate machine.directory machine.nextWorkspace with
    | error cause =>
      rw [leads] at made
      cases made
    | ok l =>
      rw [leads] at made
      dsimp only at made
      split at made
      case isTrue => cases made
      case isFalse nothing =>
        cases made
        refine ⟨l, ?_, rfl, isFree_nextWorkspace leads, rfl, rfl⟩
        rintro rfl
        have stands : machine.files.at? .root = some .directory := if_pos rfl
        rw [stands] at nothing
        exact nothing rfl

theorem openWorkspace_eq_error {cause : IoError}
    (refused : machine.openWorkspace = (.error cause, machine')) : machine' = machine := by
  unfold openWorkspace at refused
  cases made : machine.files.makeDirectory machine.directory machine.nextWorkspace with
  | error cause =>
    rw [made] at refused
    cases refused
    rfl
  | ok files =>
    rw [made] at refused
    cases refused

/-- Writing a file changes the entry at its place at most. -/
theorem agreeOutside_write {path : Path} {content : Bytes} {answer : Except IoError Unit}
    (ran : (change fun files directory => files.write directory path content).run machine =
      (answer, machine'))
    (inside : ∀ place, machine.files.locate machine.directory path = .ok place →
      l.holds place = true) :
    AgreeOutside l machine.files.at? machine'.files.at? ∧
      machine'.directory = machine.directory := by
  rw [run_change] at ran
  cases result : machine.files.write machine.directory path content with
  | error cause =>
    rw [result] at ran
    cases ran
    exact ⟨.refl l _, rfl⟩
  | ok files =>
    rw [result] at ran
    cases ran
    refine ⟨?_, rfl⟩
    rcases Files.update_eq_ok result with rfl | ⟨place, entry, leads, rfl⟩
    · exact .refl l _
    · exact Files.agreeOutside_put (inside place leads) entry

theorem run_openWorkspace (launch : Invocation → StateM Machine LaunchOutcome)
    (machine : Machine) :
    ((host launch).openWorkspace).run machine = openWorkspace machine := by
  change (modifyGet openWorkspace : StateM Machine _).run machine = _
  rw [StateT.run_modifyGet]
  cases openWorkspace machine with
  | mk answer after => rfl

/-- **Work in workspaces is confined to them** on a machine whose programs stay where they are
run. -/
theorem confines {launch : Invocation → StateM Machine LaunchOutcome}
    (stays : LaunchStays launch) : (host launch).Confines view where
  looks machine machine' request answer looks ran := by
    cases request with
    | environment name => cases ran; rfl
    | configHome => cases ran; rfl
    | isFile path => cases ran; rfl
    | isDirectory path => cases ran; rfl
    | hasEntry path => cases ran; rfl
    | list path => cases ran; rfl
    | read path => cases ran; rfl
    | write path content => exact looks.elim
    | makeDirectories path => exact looks.elim
    | openWorkspace => exact looks.elim
    | closeWorkspace path => exact looks.elim
    | launch invocation => exact looks.elim
  refuses machine machine' cause refused := by
    rw [run_openWorkspace] at refused
    rw [openWorkspace_eq_error refused]
  opens machine machine' root opened := by
    rw [run_openWorkspace] at opened
    obtain ⟨l, below, leads, isFree, files, same⟩ := openWorkspace_eq_ok opened
    have free := Files.isFree_at? below isFree
    have agree : AgreeOutside l machine.files.at? machine'.files.at? := by
      rw [files]
      exact Files.agreeOutside_put (Location.holds_iff.2 (List.prefix_refl _)) _
    rw [← same] at leads
    exact ⟨l, leadsTo_of_locate below free leads agree, free, agree⟩
  works machine machine' root l request answer leads inside ran := by
    cases request with
    | read path =>
      cases ran
      exact ⟨leads, .refl l _⟩
    | write path content =>
      obtain ⟨name, isName, rfl⟩ := inside
      have within := (leads.2 machine.files (.refl l _)).2 name
      obtain ⟨agree, same⟩ := agreeOutside_write ran fun place => within place isName
      exact ⟨leads.of_agreeOutside agree same, agree⟩
    | launch invocation =>
      obtain rfl : invocation.directory = root := inside
      obtain ⟨agree, same⟩ := stays machine machine' invocation answer l ran leads.locate
      exact ⟨leads.of_agreeOutside agree same, agree⟩
    | environment name => exact inside.elim
    | configHome => exact inside.elim
    | isFile path => exact inside.elim
    | isDirectory path => exact inside.elim
    | hasEntry path => exact inside.elim
    | list path => exact inside.elim
    | makeDirectories path => exact inside.elim
    | openWorkspace => exact inside.elim
    | closeWorkspace path => exact inside.elim
  closes machine machine' root l leads ran := by
    have removed : machine' = machine.removeTree root := (congrArg Prod.snd ran).symm
    rw [removeTree, leads.locate] at removed
    subst removed
    exact ⟨Files.isFree_at? leads.1 (Files.isFree_removeTree machine.files l),
      Files.agreeOutside_removeTree machine.files l⟩

/-! ## A program that stays -/

end Machine

end ShaderChain
