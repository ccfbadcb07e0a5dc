import ShaderChain.Text.Split

/-!
# Where texts are cut

Cutting a text at every mark is `List.splitOn` (`Text.splitEvery_eq_splitOn`), so
parts without the mark are found again when they were put together with it. The
first mark cuts a text into a front without it and what is behind
(`Text.splitFirst?_eq_some_iff`), and this front reaches as far as there is no
mark (`Text.splitFirst?_of_mem`).
-/

set_option autoImplicit false

namespace ShaderChain.Text

variable {mark : Char} {cs : List Char}

/-! ## At every mark -/

theorem splitEvery_eq_splitOn (mark : Char) (cs : List Char) :
    splitEvery mark cs = cs.splitOn mark := by
  induction cs with
  | nil => rfl
  | cons c rest ih =>
    rw [splitEvery, List.splitOn_cons_eq_if_modifyHead, ih]
    by_cases same : c = mark
    · simp [same]
    · rw [if_neg same, if_neg (by simpa using same)]
      cases parts : List.splitOn mark rest with
      | nil => exact absurd parts (List.splitOn_ne_nil mark rest)
      | cons part parts => rfl

/-- A text without the mark is one part. -/
theorem splitEvery_of_not_mem (absent : mark ∉ cs) : splitEvery mark cs = [cs] := by
  rw [splitEvery_eq_splitOn, List.splitOn_eq_singleton absent]

/-- The parts before and after a mark are cut on their own. -/
theorem splitEvery_append (mark : Char) (before after : List Char) :
    splitEvery mark (before ++ mark :: after) =
      splitEvery mark before ++ splitEvery mark after := by
  simp only [splitEvery_eq_splitOn, List.splitOn_append_cons_self]

/-- There is at least one part. -/
theorem splitEvery_ne_nil (mark : Char) (cs : List Char) : splitEvery mark cs ≠ [] := by
  rw [splitEvery_eq_splitOn]
  exact List.splitOn_ne_nil mark cs

/-- No part has the mark in it. -/
theorem not_mem_of_mem_splitEvery {part : List Char} (member : part ∈ splitEvery mark cs) :
    mark ∉ part := by
  induction cs generalizing part with
  | nil =>
    rw [List.mem_singleton.1 member]
    exact List.not_mem_nil
  | cons c rest ih =>
    rw [splitEvery] at member
    split at member
    case isTrue =>
      rcases List.mem_cons.1 member with rfl | later
      · exact List.not_mem_nil
      · exact ih later
    case isFalse other =>
      split at member
      case h_1 nothing =>
        rw [List.mem_singleton.1 member, List.mem_singleton]
        exact Ne.symm other
      case h_2 first parts split =>
        rcases List.mem_cons.1 member with rfl | later
        · rw [List.mem_cons, not_or]
          exact ⟨Ne.symm other, ih (split ▸ List.mem_cons_self)⟩
        · exact ih (split ▸ List.mem_cons_of_mem _ later)

/-! ## At the first mark -/

/-- The first mark cuts a text whose front has none. -/
theorem splitFirst?_append {before : List Char} (after : List Char) (absent : mark ∉ before) :
    splitFirst? mark (before ++ mark :: after) = some (before, after) := by
  induction before with
  | nil => exact if_pos rfl
  | cons c before ih =>
    obtain ⟨other, later⟩ := not_or.1 (absent ∘ List.mem_cons.2)
    rw [List.cons_append, splitFirst?, if_neg (Ne.symm other), ih later]
    rfl

theorem splitFirst?_eq_none_iff : splitFirst? mark cs = none ↔ mark ∉ cs := by
  induction cs with
  | nil => simp [splitFirst?]
  | cons c rest ih =>
    rw [splitFirst?]
    split
    case isTrue same => simp [same]
    case isFalse other => simp [ih, Ne.symm other]

/-- What the first mark cuts a text into. -/
theorem splitFirst?_eq_some_iff {before after : List Char} :
    splitFirst? mark cs = some (before, after) ↔ cs = before ++ mark :: after ∧ mark ∉ before := by
  constructor
  · intro cut
    have isThere : mark ∈ cs := by
      refine Decidable.of_not_not fun absent => ?_
      rw [splitFirst?_eq_none_iff.2 absent] at cut
      contradiction
    obtain ⟨front, rest, rfl, absent⟩ := List.eq_append_cons_of_mem isThere
    rw [splitFirst?_append rest absent] at cut
    cases cut
    exact ⟨rfl, absent⟩
  · rintro ⟨rfl, absent⟩
    exact splitFirst?_append after absent

/-- The front reaches as far as there is no mark. -/
theorem splitFirst?_of_mem (isThere : mark ∈ cs) :
    splitFirst? mark cs = some (cs.takeWhile (· != mark), (cs.dropWhile (· != mark)).tail) := by
  obtain ⟨before, after, rfl, absent⟩ := List.eq_append_cons_of_mem isThere
  have passes : ∀ c ∈ before, (c != mark) = true := by
    intro c member
    rw [bne_iff_ne]
    rintro rfl
    exact absent member
  rw [splitFirst?_append after absent, List.takeWhile_append_of_pos passes,
    List.dropWhile_append_of_pos passes]
  simp

end ShaderChain.Text
