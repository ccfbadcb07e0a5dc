import ShaderChain.CommandLine.OutputFiles
import ShaderChain.Proofs.Text.Case
import ShaderChain.Proofs.Text.Runs
import ShaderChain.Proofs.Text.Split

/-!
# Forms of names

The form that a name has in names of files is made character by character, with
an eye on the last character that was written. What comes out is told by the
maximal runs of letters and digits in the name: they are made small and put
together with single dashes (`slug_of_runs`). The dashes at the ends, which stand
for other characters in front of the first run and behind the last, are stripped.

All else follows from this. No run is empty or has a dash in it, so cutting a form
at its dashes gives the small runs again (`splitEvery_dashed`). Therefore a form has
no dash at an end or beside another, it is its own form, and two names have one form
exactly if their runs are the same up to the case of letters (`slug_exact`).
-/

set_option autoImplicit false

namespace ShaderChain.CommandLine

/-! ## Characters -/

/-- The characters that stand in names of files as they are, but for their case. -/
theorem isNameChar_iff {c : Char} :
    isNameChar c = true ↔
      ('a' ≤ c ∧ c ≤ 'z') ∨ ('A' ≤ c ∧ c ≤ 'Z') ∨ ('0' ≤ c ∧ c ≤ '9') := by
  have upper : c.isUpper = true ↔ 'A' ≤ c ∧ c ≤ 'Z' := decide_eq_true_iff
  have lower : c.isLower = true ↔ 'a' ≤ c ∧ c ≤ 'z' :=
    Bool.and_eq_true_iff.trans (and_congr decide_eq_true_iff decide_eq_true_iff)
  have digit : c.isDigit = true ↔ '0' ≤ c ∧ c ≤ '9' :=
    Bool.and_eq_true_iff.trans (and_congr decide_eq_true_iff decide_eq_true_iff)
  change ((c.isUpper || c.isLower) || c.isDigit) = true ↔ _
  rw [Bool.or_eq_true, Bool.or_eq_true, upper, lower, digit, or_assoc, or_left_comm]

/-- A letter or digit made small is a small letter or a digit. -/
theorem small_toLower {c : Char} (isName : isNameChar c = true) :
    ('a' ≤ c.toLower ∧ c.toLower ≤ 'z') ∨ ('0' ≤ c.toLower ∧ c.toLower ≤ '9') := by
  rw [isNameChar_iff] at isName
  change (97 ≤ c.toNat ∧ c.toNat ≤ 122) ∨ (65 ≤ c.toNat ∧ c.toNat ≤ 90) ∨
    (48 ≤ c.toNat ∧ c.toNat ≤ 57) at isName
  change (97 ≤ c.toLower.toNat ∧ c.toLower.toNat ≤ 122) ∨
    (48 ≤ c.toLower.toNat ∧ c.toLower.toNat ≤ 57)
  rw [Text.toNat_toLower]
  by_cases upper : c.isUpper = true
  · rw [if_pos upper]
    have := Text.isUpper_iff.1 upper
    omega
  · rw [if_neg upper]
    rw [Text.isUpper_iff] at upper
    omega

/-- Made small, a letter or digit is one still. -/
theorem isNameChar_toLower {c : Char} (isName : isNameChar c = true) :
    isNameChar c.toLower = true := by
  rw [isNameChar_iff]
  rcases small_toLower isName with small | digit
  · exact .inl small
  · exact .inr (.inr digit)

/-! ## Runs with dashes between them -/

/-- Runs made small. -/
def lowered (runs : List (List Char)) : List (List Char) := runs.map (List.map Char.toLower)

/-- Runs made small, with single dashes between them. -/
def dashed (runs : List (List Char)) : String := "-".intercalate ((lowered runs).map String.ofList)

/-- What the runs of a name are like: not empty, and of letters and digits. -/
def AreRuns (runs : List (List Char)) : Prop :=
  ∀ run ∈ runs, run ≠ [] ∧ ∀ c ∈ run, isNameChar c = true

/-- Runs that were made small stay as they are. -/
theorem lowered_lowered (runs : List (List Char)) : lowered (lowered runs) = lowered runs := by
  rw [lowered, lowered, List.map_map]
  refine List.map_congr_left fun run _ => ?_
  rw [Function.comp_apply, List.map_map]
  exact List.map_congr_left fun c _ => Text.toLower_toLower c

theorem toList_dashed (runs : List (List Char)) :
    (dashed runs).toList = ['-'].intercalate (lowered runs) := by
  rw [dashed, String.toList_intercalate, List.map_map]
  congr 1
  exact List.map_id'' (fun run => String.toList_ofList) _

/-- A first run stands alone, or in front of a dash and the others. -/
theorem toList_dashed_cons (run : List Char) (runs : List (List Char)) :
    (dashed (run :: runs)).toList =
      run.map Char.toLower ++ if runs = [] then [] else '-' :: (dashed runs).toList := by
  rw [toList_dashed, toList_dashed]
  cases runs with
  | nil => simp [lowered]
  | cons next runs => simp [lowered, List.intercalate_cons_cons]

/-- The characters are those of the small runs, and dashes. -/
theorem mem_dashed {runs : List (List Char)} {c : Char} (member : c ∈ (dashed runs).toList) :
    c = '-' ∨ ∃ run ∈ runs, ∃ d ∈ run, c = d.toLower := by
  induction runs with
  | nil => cases member
  | cons run runs ih =>
    rw [toList_dashed_cons] at member
    rcases List.mem_append.1 member with here | later
    · obtain ⟨d, isIn, rfl⟩ := List.mem_map.1 here
      exact .inr ⟨run, List.mem_cons_self, d, isIn, rfl⟩
    · split at later
      · cases later
      · rcases List.mem_cons.1 later with dash | after
        · exact .inl dash
        · refine (ih after).imp_right ?_
          rintro ⟨other, isOther, isFrom⟩
          exact ⟨other, List.mem_cons_of_mem _ isOther, isFrom⟩

namespace AreRuns

variable {runs : List (List Char)} (areRuns : AreRuns runs)

include areRuns

theorem lowered : AreRuns (lowered runs) := by
  refine List.forall_mem_map.2 fun run member => ?_
  obtain ⟨nonempty, inside⟩ := areRuns run member
  refine ⟨fun isEmpty => nonempty (List.map_eq_nil_iff.1 isEmpty), ?_⟩
  exact List.forall_mem_map.2 fun c isIn => isNameChar_toLower (inside c isIn)

/-- **Cutting at the dashes gives the small runs again.** -/
theorem splitEvery_dashed (some : runs ≠ []) :
    Text.splitEvery '-' (dashed runs).toList = CommandLine.lowered runs := by
  rw [Text.splitEvery_eq_splitOn, toList_dashed]
  refine List.splitOn_intercalate '-' ?_ (mt List.map_eq_nil_iff.1 some)
  intro run member dash
  exact absurd ((areRuns.lowered run member).2 '-' dash) (by decide)

/-- A dash stands between runs: there is something in front of it, and behind it something that
begins with no other dash. -/
theorem around_dash {front back : List Char} (parts : (dashed runs).toList = front ++ '-' :: back) :
    front ≠ [] ∧ back ≠ [] ∧ back.head? ≠ some '-' := by
  have some : runs ≠ [] := by
    rintro rfl
    exact List.append_ne_nil_of_right_ne_nil front (List.cons_ne_nil _ _) parts.symm
  have noEmptyPart : [] ∉ Text.splitEvery '-' front ++ Text.splitEvery '-' back := by
    rw [← Text.splitEvery_append, ← parts, areRuns.splitEvery_dashed some]
    exact fun member => (areRuns.lowered _ member).1 rfl
  rw [List.mem_append, not_or] at noEmptyPart
  obtain ⟨inFront, behind⟩ := noEmptyPart
  refine ⟨?_, ?_, ?_⟩
  · rintro rfl
    exact inFront List.mem_cons_self
  · rintro rfl
    exact behind List.mem_cons_self
  · intro isHead
    obtain ⟨more, rfl⟩ := List.head?_eq_some_iff.1 isHead
    rw [Text.splitEvery, if_pos rfl] at behind
    exact behind List.mem_cons_self

theorem head?_dashed : (dashed runs).toList.head? ≠ some '-' := by
  intro isHead
  obtain ⟨back, parts⟩ := List.head?_eq_some_iff.1 isHead
  have atStart : (dashed runs).toList = [] ++ '-' :: back := parts
  exact (areRuns.around_dash atStart).1 rfl

theorem getLast?_dashed : (dashed runs).toList.getLast? ≠ some '-' := by
  intro isLast
  obtain ⟨front, parts⟩ := List.getLast?_eq_some_iff.1 isLast
  exact (areRuns.around_dash parts).2.1 rfl

/-- **The small runs are the runs of what they make.** -/
theorem runs_dashed : Text.Runs isNameChar (dashed runs).toList (CommandLine.lowered runs) := by
  induction runs with
  | nil => exact .none (List.forall_mem_nil _)
  | cons run runs ih =>
    obtain ⟨⟨nonempty, inside⟩, later⟩ := List.forall_mem_cons.1 areRuns.lowered
    obtain ⟨_, areLater⟩ := List.forall_mem_cons.1 areRuns
    have dash : isNameChar '-' = false := by decide
    rw [toList_dashed_cons]
    by_cases none : runs = []
    · subst none
      exact .front nonempty inside nofun (.none (List.forall_mem_nil _))
    · rw [if_neg none]
      refine .front nonempty inside ?_ (.skip dash (ih areLater))
      rintro c ⟨⟩
      exact dash

/-- Runs make the same exactly if they are the same up to the case of letters. -/
theorem dashed_eq_iff {others : List (List Char)} (areOthers : AreRuns others) :
    dashed runs = dashed others ↔ List.Forall₂ Text.SameWord runs others := by
  have words : CommandLine.lowered runs = CommandLine.lowered others ↔
      List.Forall₂ Text.SameWord runs others := by
    rw [← List.forall₂_eq_eq_eq, CommandLine.lowered, CommandLine.lowered,
      List.forall₂_map_left_iff, List.forall₂_map_right_iff]
    simp only [Text.map_toLower_eq_iff]
  rw [← words]
  constructor
  · intro same
    have both := areOthers.runs_dashed
    rw [← same] at both
    exact areRuns.runs_dashed.unique both
  · intro same
    rw [dashed, dashed, same]

end AreRuns

/-! ## Making a form -/

/-- Behind a dash other characters leave nothing. -/
theorem slugFrom_gap {gap : List Char} (others : ∀ c ∈ gap, isNameChar c = false)
    (rest : List Char) : slugFrom true (gap ++ rest) = slugFrom true rest := by
  induction gap with
  | nil => rfl
  | cons c gap ih =>
    obtain ⟨other, others⟩ := List.forall_mem_cons.1 others
    rw [List.cons_append, slugFrom, if_neg (Bool.eq_false_iff.1 other), if_pos rfl, ih others]

/-- A run is made small, whatever stood before. -/
theorem slugFrom_run {run : List Char} (nonempty : run ≠ [])
    (inside : ∀ c ∈ run, isNameChar c = true) (afterDash : Bool) (rest : List Char) :
    slugFrom afterDash (run ++ rest) = run.map Char.toLower ++ slugFrom false rest := by
  induction run generalizing afterDash with
  | nil => contradiction
  | cons c run ih =>
    obtain ⟨isName, inside⟩ := List.forall_mem_cons.1 inside
    rw [List.cons_append, slugFrom, if_pos isName, List.map_cons, List.cons_append]
    cases run with
    | nil => rfl
    | cons d run => rw [ih (List.cons_ne_nil _ _) inside]

/-- Where no dash stands before, another character leaves one. -/
theorem slugFrom_other {c : Char} (other : isNameChar c = false) (rest : List Char) :
    slugFrom false (c :: rest) = '-' :: slugFrom true (c :: rest) := by
  have noName : ¬ isNameChar c = true := Bool.eq_false_iff.1 other
  rw [slugFrom, slugFrom, if_neg noName, if_neg noName, if_neg Bool.false_ne_true, if_pos rfl]

/-- At the start there may be a dash more than behind a dash. -/
theorem exists_front (cs : List Char) :
    ∃ front, (∀ c ∈ front, c = '-') ∧ slugFrom false cs = front ++ slugFrom true cs := by
  cases cs with
  | nil => exact ⟨[], List.forall_mem_nil _, rfl⟩
  | cons c rest =>
    cases isName : isNameChar c with
    | true =>
      refine ⟨[], List.forall_mem_nil _, ?_⟩
      rw [slugFrom, slugFrom, if_pos isName, if_pos isName]
      rfl
    | false => exact ⟨['-'], List.forall_mem_singleton.2 rfl, slugFrom_other isName rest⟩

/-- **Behind a dash the runs of what follows are written,** and perhaps dashes for what stands
behind the last. -/
theorem slugFrom_of_runs {cs : List Char} {runs : List (List Char)}
    (here : Text.Runs isNameChar cs runs) :
    ∃ back, (∀ c ∈ back, c = '-') ∧ slugFrom true cs = (dashed runs).toList ++ back := by
  induction here with
  | @none gap others =>
    refine ⟨[], List.forall_mem_nil _, ?_⟩
    rw [← List.append_nil gap, slugFrom_gap others]
    rfl
  | @run gap run rest runs others nonempty inside ends more ih =>
    rw [slugFrom_gap others, slugFrom_run nonempty inside, toList_dashed_cons]
    cases rest with
    | nil =>
      have none := more.unique (.none (List.forall_mem_nil _))
      refine ⟨[], List.forall_mem_nil _, ?_⟩
      rw [if_pos none, List.append_nil]
      rfl
    | cons c rest =>
      obtain ⟨back, dashes, written⟩ := ih
      rw [slugFrom_other (ends c rfl), written]
      by_cases none : runs = []
      · refine ⟨'-' :: back, List.forall_mem_cons.2 ⟨rfl, dashes⟩, ?_⟩
        rw [if_pos none, none, List.append_nil]
        rfl
      · refine ⟨back, dashes, ?_⟩
        rw [if_neg none, List.append_assoc, List.cons_append]

/-- Dashes at the ends are stripped, up to characters that are none. -/
theorem stripDashes_append {front core back : List Char} (frontDashes : ∀ c ∈ front, c = '-')
    (backDashes : ∀ c ∈ back, c = '-') (head : core.head? ≠ some '-')
    (last : core.getLast? ≠ some '-') : stripDashes (front ++ (core ++ back)) = core := by
  have isDash {dashes : List Char} (all : ∀ c ∈ dashes, c = '-') :
      ∀ c ∈ dashes, (c == '-') = true := fun c member => beq_iff_eq.2 (all c member)
  have stops {cs : List Char} (first : cs.head? ≠ some '-') : cs.dropWhile (· == '-') = cs := by
    cases cs with
    | nil => rfl
    | cons c rest =>
      refine List.dropWhile_cons_of_neg fun same => first ?_
      rw [beq_iff_eq.1 same]
      rfl
  rw [stripDashes, List.dropWhile_append_of_pos (isDash frontDashes)]
  cases core with
  | nil =>
    rw [List.nil_append, List.dropWhile_eq_nil_iff.2 (isDash backDashes)]
    rfl
  | cons c core =>
    have reversed : (c :: core).reverse.head? ≠ some '-' := by
      rw [List.head?_reverse]
      exact last
    have noneInFront : (c :: core ++ back).dropWhile (· == '-') = c :: core ++ back := stops head
    rw [noneInFront, List.reverse_append,
      List.dropWhile_append_of_pos fun d member => isDash backDashes d (List.mem_reverse.1 member),
      stops reversed, List.reverse_reverse]

/-- **The form of a name is made of its runs of letters and digits.** -/
theorem slug_of_runs {name : String} {runs : List (List Char)}
    (here : Text.Runs isNameChar name.toList runs) : slug name = dashed runs := by
  have areRuns : AreRuns runs := here.forall_mem
  obtain ⟨front, frontDashes, start⟩ := exists_front name.toList
  obtain ⟨back, backDashes, written⟩ := slugFrom_of_runs here
  rw [slug, start, written,
    stripDashes_append frontDashes backDashes areRuns.head?_dashed areRuns.getLast?_dashed,
    String.ofList_toList]

/-! ## What forms are like -/

/-- Whether a text is made of small letters, digits and dashes, with no dash at an end or beside
another. -/
structure Tidy (s : String) : Prop where
  chars : ∀ c ∈ s.toList, ('a' ≤ c ∧ c ≤ 'z') ∨ ('0' ≤ c ∧ c ≤ '9') ∨ c = '-'
  head : s.toList.head? ≠ some '-'
  last : s.toList.getLast? ≠ some '-'
  apart : ¬ ['-', '-'] <:+: s.toList

theorem AreRuns.tidy {runs : List (List Char)} (areRuns : AreRuns runs) : Tidy (dashed runs) := by
  refine ⟨?_, areRuns.head?_dashed, areRuns.getLast?_dashed, ?_⟩
  · intro c member
    rcases mem_dashed member with dash | ⟨run, isRun, d, isIn, rfl⟩
    · exact .inr (.inr dash)
    · rcases small_toLower ((areRuns run isRun).2 d isIn) with small | digit
      · exact .inl small
      · exact .inr (.inl digit)
  · rintro ⟨front, behind, parts⟩
    have sides : (dashed runs).toList = front ++ '-' :: ('-' :: behind) := by
      rw [← parts, List.append_assoc]
      rfl
    exact (areRuns.around_dash sides).2.2 rfl

/-- Every form is tidy. -/
theorem tidy_slug (name : String) : Tidy (slug name) := by
  obtain ⟨runs, here⟩ := Text.Runs.exists_runs isNameChar name.toList
  have areRuns : AreRuns runs := here.forall_mem
  rw [slug_of_runs here]
  exact areRuns.tidy

/-- **The form of a name is its maximal runs of ASCII letters and digits,** made small and put
together with single dashes. So it is tidy and its own form, and another name has the same form
exactly if it has the same runs up to the case of letters. -/
theorem slug_exact (name : String) :
    (∀ c, isNameChar c = true ↔
      ('a' ≤ c ∧ c ≤ 'z') ∨ ('A' ≤ c ∧ c ≤ 'Z') ∨ ('0' ≤ c ∧ c ≤ '9')) ∧
    ∃ runs, Text.Runs isNameChar name.toList runs ∧
      slug name = "-".intercalate (runs.map fun run => String.ofList (run.map Char.toLower)) ∧
      Tidy (slug name) ∧ slug (slug name) = slug name ∧
      ∀ other otherRuns, Text.Runs isNameChar other.toList otherRuns →
        (slug other = slug name ↔ List.Forall₂ Text.SameWord otherRuns runs) := by
  obtain ⟨runs, here⟩ := Text.Runs.exists_runs isNameChar name.toList
  have areRuns : AreRuns runs := here.forall_mem
  have form := slug_of_runs here
  refine ⟨fun c => isNameChar_iff, runs, here, ?_, tidy_slug name, ?_, ?_⟩
  · rw [form, dashed, lowered, List.map_map]
    rfl
  · rw [form, slug_of_runs areRuns.runs_dashed, dashed, lowered_lowered, dashed]
  · intro other otherRuns otherHere
    have areOthers : AreRuns otherRuns := otherHere.forall_mem
    rw [form, slug_of_runs otherHere]
    exact areOthers.dashed_eq_iff areRuns

/-- Two spellings of one tool have one form. -/
theorem slug_exact_spellings :
    let name := "../FXC_5é"
    let other := " Fxc (5)"
    let otherRuns := [['F', 'x', 'c'], ['5']]
    Text.Runs isNameChar other.toList otherRuns ∧ slug name = "fxc-5" ∧ slug other = "fxc-5" ∧
      ∃ runs, Text.Runs isNameChar name.toList runs ∧ Tidy (slug name) ∧
        (slug other = slug name ↔ List.Forall₂ Text.SameWord otherRuns runs) := by
  intro name other otherRuns
  have digits : Text.Runs isNameChar ['5', ')'] [['5']] :=
    @Text.Runs.front _ ['5'] [')'] _ (by decide) (List.all_eq_true.1 (by decide))
      (by rintro c ⟨⟩; decide) (.skip (by decide) (.none (List.forall_mem_nil _)))
  have letters : Text.Runs isNameChar ['F', 'x', 'c', ' ', '(', '5', ')'] otherRuns :=
    @Text.Runs.front _ ['F', 'x', 'c'] _ _ (by decide) (List.all_eq_true.1 (by decide))
      (by rintro c ⟨⟩; decide) (.skip (by decide) (.skip (by decide) digits))
  have whole : Text.Runs isNameChar [' ', 'F', 'x', 'c', ' ', '(', '5', ')'] otherRuns :=
    .skip (by decide) letters
  have text : other.toList = [' ', 'F', 'x', 'c', ' ', '(', '5', ')'] := by decide +kernel
  have here : Text.Runs isNameChar other.toList otherRuns := text ▸ whole
  obtain ⟨_, runs, isName, _, tidy, _, same⟩ := slug_exact name
  exact ⟨here, by decide +kernel, by decide +kernel, runs, isName, tidy, same other otherRuns here⟩

end ShaderChain.CommandLine
