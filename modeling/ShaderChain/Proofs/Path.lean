import ShaderChain.Language
import ShaderChain.Machine.Path
import ShaderChain.Proofs.Text.Split

/-!
# Paths of names in a directory

A path is a text, so what it says is read off its characters. The names of
files have no slashes. In the path of such a name in a directory, the name
stands after a front that is the same for every name (`Path.exists_front`), so
different names have different paths (`Path.child_injective`). Such a path says
what the path of the directory says and then the name (`Path.components_child`);
its last part, with its extension, is that of the name (`Path.fileName?_child`,
`Path.extension?_child`).
-/

set_option autoImplicit false

namespace ShaderChain

namespace Path

/-! ## Absolute paths -/

theorem text_ne_empty_of_isAbsolute {p : Path} (absolute : p.isAbsolute = true) :
    p.text.isEmpty = false := by
  rw [Bool.eq_false_iff]
  intro empty
  rw [isAbsolute, String.isEmpty_iff.1 empty] at absolute
  contradiction

/-- What lies in a directory with an absolute path has an absolute path. -/
theorem isAbsolute_join {p : Path} (q : Path) (absolute : p.isAbsolute = true) :
    (p.join q).isAbsolute = true := by
  have head : p.text.toList.head? = some '/' := by
    rw [isAbsolute, beq_iff_eq] at absolute
    exact absolute
  obtain ⟨rest, text⟩ := List.head?_eq_some_iff.1 head
  rw [join, text_ne_empty_of_isAbsolute absolute]
  split
  case isTrue other =>
    rw [Bool.or_false] at other
    exact other
  case isFalse =>
    split
    · rw [isAbsolute, String.toList_append, text]
      rfl
    · rw [isAbsolute, String.toList_append, String.toList_append, text]
      rfl

/-- The path that leads on to `q` ends in the text of `q`. -/
theorem exists_text_join (p q : Path) : ∃ front, (p.join q).text = front ++ q.text := by
  rw [join]
  split
  · exact ⟨"", String.empty_append.symm⟩
  · split
    · exact ⟨p.text, rfl⟩
    · exact ⟨p.text ++ "/", rfl⟩

/-- The path that leads on to nothing ends in a slash. -/
theorem getLast?_join_of_isEmpty {p q : Path} (absolute : p.isAbsolute = true)
    (empty : q.text.isEmpty = true) : (p.join q).text.toList.getLast? = some '/' := by
  have text : q.text = "" := String.isEmpty_iff.1 empty
  have relative : q.isAbsolute = false := by
    rw [isAbsolute, text]
    rfl
  rw [join, relative, text_ne_empty_of_isAbsolute absolute, text]
  split
  case isTrue => contradiction
  case isFalse =>
    split
    case isTrue last => rw [String.append_empty, beq_iff_eq.1 last]
    case isFalse => rw [String.append_empty, String.toList_append, List.getLast?_append]; rfl

/-! ## Names -/

/-- A path without slashes is not absolute. -/
theorem isAbsolute_of_noSlash {p : Path} (bare : '/' ∉ p.text.toList) : p.isAbsolute = false := by
  rw [isAbsolute, beq_eq_false_iff_ne]
  intro head
  exact bare (List.mem_of_mem_head? head)

/-- A path without slashes has at most one component. -/
theorem components_of_noSlash {p : Path} (bare : '/' ∉ p.text.toList) :
    p.components.length ≤ 1 := by
  have parts : p.parts.length ≤ 1 := by
    rw [Path.parts, Text.splitEvery_of_not_mem bare, List.length_map]
    exact List.length_filter_le ..
  have rest : (p.parts.map componentOf).drop 1 = [] := by
    rw [List.drop_eq_nil_iff, List.length_map]
    exact parts
  rw [components, isAbsolute_of_noSlash bare, rest]
  exact (List.length_append ▸ List.length_take_le 1 _)

/-- What stands in front of the names in a directory: nothing if its path is empty, else the text of
its path, which ends in a slash or gets one. -/
inductive Front (p : Path) : List Char → Prop where
  | none (empty : p.text.toList = []) : Front p []
  | ended {before : List Char} (text : p.text.toList = before ++ ['/']) : Front p (before ++ ['/'])
  | slash (nonempty : p.text.toList ≠ []) : Front p (p.text.toList ++ ['/'])

/-- In a directory, every name stands after the same front. -/
theorem exists_front (p : Path) : ∃ front : List Char, Front p front ∧
    ∀ name : String, '/' ∉ name.toList → (p.child name).text.toList = front ++ name.toList := by
  have child {name : String} (plain : '/' ∉ name.toList) : p.child name =
      if p.text.isEmpty then ⟨name⟩
      else if p.text.toList.getLast? == some '/' then ⟨p.text ++ name⟩
      else ⟨p.text ++ "/" ++ name⟩ := by
    rw [Path.child, join, isAbsolute_of_noSlash (p := ⟨name⟩) plain]
    rfl
  cases empty : p.text.isEmpty with
  | true =>
    refine ⟨[], .none ?_, fun name plain => ?_⟩
    · rw [String.isEmpty_iff.1 empty]
      rfl
    · rw [child plain, empty]
      rfl
  | false =>
    cases last : p.text.toList.getLast? == some '/' with
    | true =>
      obtain ⟨before, text⟩ := List.getLast?_eq_some_iff.1 (beq_iff_eq.1 last)
      refine ⟨before ++ ['/'], .ended text, fun name plain => ?_⟩
      rw [child plain, empty, last, ← text]
      exact String.toList_append
    | false =>
      have nonempty : p.text.toList ≠ [] := by
        rw [Ne, String.toList_eq_nil_iff, ← String.isEmpty_iff, empty]
        exact Bool.false_ne_true
      refine ⟨p.text.toList ++ ['/'], .slash nonempty, fun name plain => ?_⟩
      rw [child plain, empty, last]
      change (p.text ++ "/" ++ name).toList = _
      rw [String.toList_append, String.toList_append]
      rfl

/-- Different names have different paths. -/
theorem child_injective {p : Path} {name other : String} (plain : '/' ∉ name.toList)
    (otherPlain : '/' ∉ other.toList) (same : p.child name = p.child other) : name = other := by
  obtain ⟨front, _, text⟩ := p.exists_front
  have whole : front ++ name.toList = front ++ other.toList := by
    rw [← text name plain, ← text other otherPlain, same]
  exact String.toList_inj.1 (List.append_cancel_left whole)

/-! ## The last part -/

/-- Whether a text can be the name of a file. -/
structure IsName (name : String) : Prop where
  nonempty : name ≠ ""
  notCurrent : name ≠ "."
  notUp : name ≠ ".."
  plain : '/' ∉ name.toList

theorem isName_iff {name : String} :
    IsName name ↔ name ≠ "" ∧ name ≠ "." ∧ name ≠ ".." ∧ '/' ∉ name.toList :=
  ⟨fun ⟨nonempty, notCurrent, notUp, plain⟩ => ⟨nonempty, notCurrent, notUp, plain⟩,
    fun ⟨nonempty, notCurrent, notUp, plain⟩ => ⟨nonempty, notCurrent, notUp, plain⟩⟩

instance (name : String) : Decidable (IsName name) := decidable_of_iff' _ isName_iff

/-- A text without slashes that has more in it than points is the name of a file. -/
theorem IsName.of_mem {name : String} {c : Char} (member : c ∈ name.toList) (notPoint : c ≠ '.')
    (plain : '/' ∉ name.toList) : IsName name := by
  have notIn : ∀ {other : String}, c ∉ other.toList → name ≠ other := by
    rintro other absent rfl
    exact absent member
  exact ⟨notIn nofun, notIn (by simpa using notPoint), notIn (by simpa using notPoint), plain⟩

/-- The path of a part without slashes has the parts of the directory and then this part. -/
theorem parts_child_of_plain (p : Path) {name : String} (isThere : name ≠ "")
    (plain : '/' ∉ name.toList) : (p.child name).parts = p.parts ++ [name] := by
  obtain ⟨front, isFront, text⟩ := p.exists_front
  have last : (([name.toList].filter (! ·.isEmpty)).map String.ofList) = [name] := by
    have nonempty : name.toList.isEmpty = false := by
      rw [List.isEmpty_eq_false_iff, Ne, String.toList_eq_nil_iff]
      exact isThere
    rw [List.filter_cons_of_pos (by rw [nonempty]; rfl)]
    exact congrArg ([·]) String.ofList_toList
  have behind (before : List Char) :
      ((Text.splitEvery '/' (before ++ ['/'] ++ name.toList)).filter (! ·.isEmpty)).map
          String.ofList =
        ((Text.splitEvery '/' before).filter (! ·.isEmpty)).map String.ofList ++ [name] := by
    rw [List.append_assoc, List.singleton_append, Text.splitEvery_append,
      Text.splitEvery_of_not_mem plain, List.filter_append, List.map_append, last]
  rw [parts, text name plain, parts]
  cases isFront with
  | none empty =>
    rw [empty, List.nil_append, Text.splitEvery_of_not_mem plain]
    exact last
  | ended ends =>
    rw [behind, ends, Text.splitEvery_append, List.filter_append, List.map_append]
    exact congrArg (· ++ [name]) (List.append_nil _).symm
  | slash nonempty => exact behind _

/-- The path of a name has the parts of the directory and then the name. -/
theorem parts_child (p : Path) {name : String} (isName : IsName name) :
    (p.child name).parts = p.parts ++ [name] :=
  p.parts_child_of_plain isName.nonempty isName.plain

/-- The path of a part without slashes starts where the directory does. -/
theorem isAbsolute_child_of_plain (p : Path) {name : String} (plain : '/' ∉ name.toList) :
    (p.child name).isAbsolute = p.isAbsolute := by
  obtain ⟨front, isFront, text⟩ := p.exists_front
  rw [isAbsolute, isAbsolute, text name plain]
  cases isFront with
  | none empty =>
    have relative : (name.toList.head? == some '/') = false := by
      rw [beq_eq_false_iff_ne]
      exact fun head => plain (List.mem_of_mem_head? head)
    rw [List.nil_append, relative, empty]
    rfl
  | @ended before ends =>
    rw [ends]
    cases before with
    | nil => rfl
    | cons first rest => rfl
  | slash nonempty =>
    obtain ⟨first, rest, start⟩ := List.exists_cons_of_ne_nil nonempty
    rw [start]
    rfl

/-- The path of a name starts where the directory does. -/
theorem isAbsolute_child (p : Path) {name : String} (isName : IsName name) :
    (p.child name).isAbsolute = p.isAbsolute :=
  p.isAbsolute_child_of_plain isName.plain

/-- **A name in a directory stays inside**: its path has the components of the directory and then
the name. -/
theorem components_child (p : Path) {name : String} (isName : IsName name) :
    (p.child name).components = p.components ++ [.name name] := by
  have component : componentOf name = .name name := by
    rw [componentOf, if_neg isName.notCurrent, if_neg isName.notUp]
  have kept : [Component.name name].filter (· != .current) = [.name name] := rfl
  have split : (p.child name).parts.map componentOf = p.parts.map componentOf ++ [.name name] := by
    rw [p.parts_child isName, List.map_append, List.map_singleton, component]
  rw [components, components, split, p.isAbsolute_child isName]
  split
  case isTrue => rw [List.filter_append, kept, List.cons_append]
  case isFalse =>
    cases p.parts.map componentOf with
    | nil => rfl
    | cons first rest =>
      change first :: (rest ++ [Component.name name]).filter (· != Component.current) = _
      rw [List.filter_append, kept]
      rfl

/-- The path of a name in a directory has this name. -/
theorem fileName?_child (p : Path) {name : String} (isName : IsName name) :
    (p.child name).fileName? = some name := by
  rw [fileName?, p.components_child isName, List.getLast?_concat]

/-- The extension of a name is what stands after its last point. -/
theorem extension?_child (p : Path) {start extension : String}
    (isName : IsName (start ++ "." ++ extension)) (nonempty : start ≠ "")
    (noPoint : '.' ∉ extension.toList) :
    (p.child (start ++ "." ++ extension)).extension? = some extension := by
  have reversed : (start ++ "." ++ extension).toList.reverse =
      extension.toList.reverse ++ '.' :: start.toList.reverse := by
    rw [String.toList_append, String.toList_append, List.reverse_append, List.reverse_append]
    rfl
  have before : start.toList.reverse.isEmpty = false := by
    rw [List.isEmpty_eq_false_iff, Ne, List.reverse_eq_nil_iff, String.toList_eq_nil_iff]
    exact nonempty
  rw [extension?, fileName?_child p isName, Option.bind_some, extensionOf?, reversed,
    Text.splitFirst?_append _ (mt List.mem_reverse.1 noPoint)]
  dsimp only
  rw [before, List.reverse_reverse, String.ofList_toList]
  rfl

end Path

/-- No extension has a slash or a point in it. -/
theorem Language.plain_fileExtension (language : String) :
    '/' ∉ (fileExtension language).toList ∧ '.' ∉ (fileExtension language).toList := by
  rw [fileExtension]
  repeat' split
  all_goals decide

end ShaderChain
