import Mathlib.Data.List.TakeWhile
import ShaderChain.Text.Blank

/-!
# Maximal runs of characters

A property of characters cuts a text into its maximal runs of characters with the
property, which stand in it in order with nothing but other characters around
them (`Text.Runs`). There is a way to cut every text like this, and one only
(`Text.Runs.exists_runs`, `Text.Runs.unique`), and the words of a text are its maximal
runs of characters that are not blank (`Text.runs_words`).
-/

set_option autoImplicit false

namespace ShaderChain.Text

/-- The maximal runs of characters with a property among some characters, in order. Behind a run
the characters are at an end or go on with one that does not have the property. -/
inductive Runs (p : Char → Bool) : List Char → List (List Char) → Prop where
  | none {gap : List Char} (others : ∀ c ∈ gap, p c = false) : Runs p gap []
  | run {gap run rest : List Char} {runs : List (List Char)} (others : ∀ c ∈ gap, p c = false)
      (nonempty : run ≠ []) (inside : ∀ c ∈ run, p c = true)
      (ends : ∀ c ∈ rest.head?, p c = false) (more : Runs p rest runs) :
      Runs p (gap ++ (run ++ rest)) (run :: runs)

namespace Runs

variable {p : Char → Bool} {gap run rest : List Char} {runs : List (List Char)}

/-- A character without the property may stand in front. -/
theorem skip {c : Char} (other : p c = false) (here : Runs p rest runs) :
    Runs p (c :: rest) runs := by
  cases here with
  | none others => exact .none (List.forall_mem_cons.2 ⟨other, others⟩)
  | run others nonempty inside ends more =>
    rw [← List.cons_append]
    exact .run (List.forall_mem_cons.2 ⟨other, others⟩) nonempty inside ends more

/-- Characters that begin with a run may begin the characters. -/
theorem front (nonempty : run ≠ []) (inside : ∀ c ∈ run, p c = true)
    (ends : ∀ c ∈ rest.head?, p c = false) (more : Runs p rest runs) :
    Runs p (run ++ rest) (run :: runs) :=
  .run (List.forall_mem_nil _) nonempty inside ends more

/-- What stands in front of the first run are the characters up to the first with the property. -/
theorem dropWhile_gap (others : ∀ c ∈ gap, p c = false) (nonempty : run ≠ [])
    (inside : ∀ c ∈ run, p c = true) :
    (gap ++ (run ++ rest)).dropWhile (! p ·) = run ++ rest := by
  rw [List.dropWhile_append_of_pos fun c member => by rw [others c member]; rfl]
  cases run with
  | nil => contradiction
  | cons c run =>
    have first : p c = true := inside c List.mem_cons_self
    rw [List.cons_append, List.dropWhile_cons_of_neg (by rw [first]; exact Bool.false_ne_true)]

theorem takeWhile_run (inside : ∀ c ∈ run, p c = true) (ends : ∀ c ∈ rest.head?, p c = false) :
    (run ++ rest).takeWhile p = run ∧ (run ++ rest).dropWhile p = rest := by
  rw [List.takeWhile_append_of_pos inside, List.dropWhile_append_of_pos inside]
  cases rest with
  | nil => exact ⟨List.append_nil _, rfl⟩
  | cons c rest =>
    have stops : ¬ p c = true := by
      rw [ends c rfl]
      exact Bool.false_ne_true
    rw [List.takeWhile_cons_of_neg stops, List.dropWhile_cons_of_neg stops]
    exact ⟨List.append_nil _, rfl⟩

/-- Where there is a run, there is a character with the property. -/
theorem not_all_others (nonempty : run ≠ []) (inside : ∀ c ∈ run, p c = true)
    (others : ∀ c ∈ gap ++ (run ++ rest), p c = false) : False := by
  obtain ⟨c, member⟩ := List.exists_mem_of_ne_nil run nonempty
  have none := others c (List.mem_append_right _ (List.mem_append_left _ member))
  rw [inside c member] at none
  contradiction

/-- **There is one way to cut characters into maximal runs.** -/
theorem unique {cs : List Char} {others : List (List Char)} (first : Runs p cs runs)
    (second : Runs p cs others) : runs = others := by
  induction first generalizing others with
  | none without =>
    generalize same : ‹List Char› = gap at without second
    cases second with
    | none _ => rfl
    | run _ nonempty inside _ _ => exact (not_all_others nonempty inside without).elim
  | @run gap run rest runs without nonempty inside ends more ih =>
    generalize same : gap ++ (run ++ rest) = cs at second
    cases second with
    | none others =>
      subst same
      exact (not_all_others nonempty inside others).elim
    | @run gap' run' rest' runs' without' nonempty' inside' ends' more' =>
      have tails : run ++ rest = run' ++ rest' := by
        rw [← dropWhile_gap without nonempty inside, same, dropWhile_gap without' nonempty' inside']
      obtain ⟨isRun, isRest⟩ := takeWhile_run inside ends
      obtain ⟨isRun', isRest'⟩ := takeWhile_run inside' ends'
      have sameRun : run = run' := by rw [← isRun, tails, isRun']
      have sameRest : rest = rest' := by rw [← isRest, tails, isRest']
      subst sameRun sameRest
      rw [ih more']

/-- A character with the property begins a run, or the first run if that stands in front. -/
theorem extend {c : Char} (isInside : p c = true) (here : Runs p rest runs) :
    ∃ longer, Runs p (c :: rest) longer := by
  have single : ∀ d ∈ [c], p d = true := List.forall_mem_singleton.2 isInside
  cases here with
  | none others =>
    exact ⟨[[c]], .front (List.cons_ne_nil _ _) single
      (fun d isHead => others d (List.mem_of_mem_head? isHead)) (.none others)⟩
  | @run gap run after runs others nonempty inside ends more =>
    cases gap with
    | nil =>
      exact ⟨(c :: run) :: runs, .front (List.cons_ne_nil _ _)
        (List.forall_mem_cons.2 ⟨isInside, inside⟩) ends more⟩
    | cons d gap =>
      have other : ∀ e ∈ (d :: gap ++ (run ++ after)).head?, p e = false := by
        rintro e ⟨⟩
        exact others d List.mem_cons_self
      exact ⟨[c] :: run :: runs, .front (List.cons_ne_nil _ _) single other
        (.run others nonempty inside ends more)⟩

variable (p) in
/-- **All characters can be cut into maximal runs.** -/
theorem exists_runs (cs : List Char) : ∃ runs, Runs p cs runs := by
  induction cs with
  | nil => exact ⟨[], .none (List.forall_mem_nil _)⟩
  | cons c rest ih =>
    obtain ⟨runs, here⟩ := ih
    cases isInside : p c with
    | true => exact here.extend isInside
    | false => exact ⟨runs, here.skip isInside⟩

/-- The runs are not empty, and all their characters have the property. -/
theorem forall_mem {cs : List Char} (here : Runs p cs runs) :
    ∀ run ∈ runs, run ≠ [] ∧ ∀ c ∈ run, p c = true := by
  induction here with
  | none => exact List.forall_mem_nil _
  | run _ nonempty inside _ _ ih => exact List.forall_mem_cons.2 ⟨⟨nonempty, inside⟩, ih⟩

end Runs

/-- Whether a character is not blank. -/
def isContent (c : Char) : Bool := ! isBlank c

/-- Cutting goes on from the part of a run that was read. -/
theorem runs_wordsFrom {run : List Char} (cs : List Char) (inside : ∀ c ∈ run, isContent c = true) :
    Runs isContent (run.reverse ++ cs) (wordsFrom run cs) := by
  have reversed : ∀ c ∈ run.reverse, isContent c = true :=
    fun c member => inside c (List.mem_reverse.1 member)
  induction cs generalizing run with
  | nil =>
    rw [wordsFrom]
    cases run with
    | nil => exact .none (List.forall_mem_nil _)
    | cons c run =>
      exact .front (by simp) reversed (by simp) (.none (List.forall_mem_nil _))
  | cons c rest ih =>
    rw [wordsFrom]
    by_cases blank : isBlank c = true
    · have other : isContent c = false := by simp [isContent, blank]
      have later : Runs isContent (c :: rest) (wordsFrom [] rest) :=
        .skip other (ih (List.forall_mem_nil _) (List.forall_mem_nil _))
      rw [if_pos blank]
      cases run with
      | nil => exact later
      | cons d run => exact .front (by simp) reversed (by simpa using other) later
    · have content : isContent c = true := by simp [isContent, blank]
      have longer : ∀ d ∈ c :: run, isContent d = true := List.forall_mem_cons.2 ⟨content, inside⟩
      rw [if_neg blank, ← List.singleton_append, ← List.append_assoc, ← List.reverse_cons]
      exact ih longer fun d member => longer d (List.mem_reverse.1 member)

/-- **The words of a text are its maximal runs of characters that are not blank.** -/
theorem runs_words (s : String) :
    Runs isContent s.toList ((words s).map String.toList) := by
  have runs := runs_wordsFrom s.toList (List.forall_mem_nil _ : ∀ c ∈ [], isContent c = true)
  have same : (words s).map String.toList = wordsFrom [] s.toList := by
    rw [words, List.map_map]
    exact List.map_id'' (fun cs => String.toList_ofList) _
  rw [same]
  exact runs

end ShaderChain.Text
