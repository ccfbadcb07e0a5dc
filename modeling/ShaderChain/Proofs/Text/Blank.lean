import Mathlib.Data.List.TakeWhile
import ShaderChain.Text.Blank

/-!
# Texts without the blanks at their ends

What is left of some characters without the blanks at either end is described by
how the characters fall into three parts (`Text.Stripped`), and there is one way
only in which they do (`Text.stripped_iff`). What is left without the blanks at the
end alone is described by two parts (`Text.StrippedEnd`). Characters among which
there is no blank are left as they are (`Text.stripped_of_content`).
-/

set_option autoImplicit false

namespace ShaderChain.Text

/-- Whether characters are others with nothing but blanks in front and behind, and have no blank
at either end themselves. -/
structure Stripped (cs core : List Char) : Prop where
  parts : ∃ front back, cs = front ++ core ++ back ∧ (∀ c ∈ front, isBlank c = true) ∧
    ∀ c ∈ back, isBlank c = true
  head : ∀ c ∈ core.head?, isBlank c = false
  last : ∀ c ∈ core.getLast?, isBlank c = false

variable {cs core : List Char}

/-- Nothing is dropped from characters that do not begin with a blank. -/
theorem dropWhile_of_head (head : ∀ c ∈ cs.head?, isBlank c = false) :
    cs.dropWhile isBlank = cs := by
  cases cs with
  | nil => rfl
  | cons c rest =>
    have content : ¬ isBlank c = true := by
      rw [head c rfl]
      exact Bool.false_ne_true
    exact List.dropWhile_cons_of_neg content

/-- What is left after dropping blanks does not begin with one. -/
theorem head_of_dropWhile {c : Char} (isHead : c ∈ (cs.dropWhile isBlank).head?) :
    isBlank c = false := by
  have notBlank := List.head?_dropWhile_not isBlank cs
  rw [Option.mem_def.1 isHead] at notBlank
  exact notBlank

/-- Blanks at the end are dropped, up to a character that is none. -/
theorem stripEnd_append {back : List Char} (blank : ∀ c ∈ back, isBlank c = true)
    (last : ∀ c ∈ core.getLast?, isBlank c = false) : stripEnd (core ++ back) = core := by
  have dropped : (back.reverse ++ core.reverse).dropWhile isBlank = core.reverse := by
    rw [List.dropWhile_append_of_pos fun c member => blank c (List.mem_reverse.1 member)]
    apply dropWhile_of_head
    rw [List.head?_reverse]
    exact last
  rw [stripEnd, List.reverse_append, dropped, List.reverse_reverse]

/-- Whether characters are others with nothing but blanks behind, and have no blank at the end
themselves. -/
structure StrippedEnd (cs core : List Char) : Prop where
  parts : ∃ back, cs = core ++ back ∧ ∀ c ∈ back, isBlank c = true
  last : ∀ c ∈ core.getLast?, isBlank c = false

/-- **There is one way to strip characters at the end.** -/
theorem strippedEnd_iff : StrippedEnd cs core ↔ core = stripEnd cs := by
  constructor
  · rintro ⟨⟨back, rfl, blank⟩, last⟩
    exact (stripEnd_append blank last).symm
  · rintro rfl
    refine ⟨⟨(cs.reverse.takeWhile isBlank).reverse, ?_, ?_⟩, ?_⟩
    · rw [stripEnd, ← List.reverse_append, List.takeWhile_append_dropWhile, List.reverse_reverse]
    · intro c member
      exact List.mem_takeWhile_imp (List.mem_reverse.1 member)
    · intro c isLast
      rw [stripEnd, List.getLast?_reverse] at isLast
      exact head_of_dropWhile isLast

theorem stripped_strip (cs : List Char) : Stripped cs (strip cs) := by
  have kept : cs.dropWhile isBlank = strip cs ++
      ((cs.dropWhile isBlank).reverse.takeWhile isBlank).reverse := by
    rw [strip, stripEnd, ← List.reverse_append, List.takeWhile_append_dropWhile,
      List.reverse_reverse]
  refine ⟨⟨cs.takeWhile isBlank, ((cs.dropWhile isBlank).reverse.takeWhile isBlank).reverse,
    ?_, ?_, ?_⟩, ?_, ?_⟩
  · rw [List.append_assoc, ← kept, List.takeWhile_append_dropWhile]
  · intro c member
    exact List.mem_takeWhile_imp member
  · intro c member
    exact List.mem_takeWhile_imp (List.mem_reverse.1 member)
  · intro c isHead
    refine @head_of_dropWhile cs c ?_
    rw [kept, List.head?_append, Option.mem_def.1 isHead]
    rfl
  · intro c isLast
    rw [strip, stripEnd, List.getLast?_reverse] at isLast
    exact head_of_dropWhile isLast

/-- **There is one way to strip characters.** -/
theorem stripped_iff : Stripped cs core ↔ core = strip cs := by
  constructor
  · rintro ⟨⟨front, back, rfl, frontBlank, backBlank⟩, head, last⟩
    rw [strip, List.append_assoc, List.dropWhile_append_of_pos frontBlank]
    cases core with
    | nil =>
      have nothing : back.dropWhile isBlank = [] := List.dropWhile_eq_nil_iff.2 backBlank
      rw [List.nil_append, nothing]
      rfl
    | cons c rest =>
      have content : (c :: rest ++ back).dropWhile isBlank = c :: rest ++ back :=
        dropWhile_of_head head
      rw [content, stripEnd_append backBlank last]
  · rintro rfl
    exact stripped_strip cs

/-- Characters without a blank are what is left of them. -/
theorem stripped_of_content (content : ∀ c ∈ cs, isBlank c = false) : Stripped cs cs where
  parts := ⟨[], [], by rw [List.nil_append, List.append_nil], List.forall_mem_nil _,
    List.forall_mem_nil _⟩
  head c isHead := content c (List.mem_of_mem_head? isHead)
  last c isLast := content c (List.mem_of_mem_getLast? isLast)

theorem stripped_iff_toList_trim {s : String} :
    Stripped s.toList core ↔ core = (trim s).toList := by
  rw [stripped_iff, trim, String.toList_ofList]

/-- Blanks around do not count. -/
theorem Stripped.pad {front back : List Char} (stripped : Stripped cs core)
    (frontBlank : ∀ c ∈ front, isBlank c = true) (backBlank : ∀ c ∈ back, isBlank c = true) :
    Stripped (front ++ cs ++ back) core := by
  obtain ⟨⟨first, last, rfl, firstBlank, lastBlank⟩, head, getLast⟩ := stripped
  refine ⟨⟨front ++ first, last ++ back, by simp only [List.append_assoc], ?_, ?_⟩, head, getLast⟩
  · exact List.forall_mem_append.2 ⟨frontBlank, firstBlank⟩
  · exact List.forall_mem_append.2 ⟨lastBlank, backBlank⟩

theorem strip_pad {front back : List Char} (frontBlank : ∀ c ∈ front, isBlank c = true)
    (backBlank : ∀ c ∈ back, isBlank c = true) : strip (front ++ cs ++ back) = strip cs :=
  (stripped_iff.1 ((stripped_strip cs).pad frontBlank backBlank)).symm

theorem strip_dropWhile (cs : List Char) : strip (cs.dropWhile isBlank) = strip cs := by
  rw [strip, strip, dropWhile_of_head fun c => head_of_dropWhile]

theorem strip_stripEnd (cs : List Char) : strip (stripEnd cs) = strip cs := by
  obtain ⟨⟨back, parts, blank⟩, _⟩ := strippedEnd_iff.2 (Eq.refl (stripEnd cs))
  have padded : strip ([] ++ stripEnd cs ++ back) = strip (stripEnd cs) :=
    strip_pad (List.forall_mem_nil _) blank
  rw [List.nil_append, ← parts] at padded
  exact padded.symm

theorem dropWhile_append_cons {mark : Char} (content : isBlank mark = false)
    (before after : List Char) :
    (before ++ mark :: after).dropWhile isBlank = before.dropWhile isBlank ++ mark :: after := by
  induction before with
  | nil => simp [content]
  | cons c before ih =>
    rw [List.cons_append, List.dropWhile_cons, List.dropWhile_cons, ih]
    split
    · rfl
    · rfl

/-- Around a character that is no blank, the two ends are stripped on their own. -/
theorem strip_append_cons {mark : Char} (content : isBlank mark = false)
    (before after : List Char) :
    strip (before ++ mark :: after) = before.dropWhile isBlank ++ mark :: stripEnd after := by
  rw [strip, dropWhile_append_cons content, stripEnd, stripEnd, List.reverse_append,
    List.reverse_cons, List.append_assoc, List.singleton_append, dropWhile_append_cons content]
  simp

/-- Nothing is left of blanks only. -/
theorem strip_eq_nil_iff : strip cs = [] ↔ ∀ c ∈ cs, isBlank c = true := by
  constructor
  · intro nothing
    obtain ⟨⟨front, back, parts, frontBlank, backBlank⟩, _, _⟩ := stripped_strip cs
    rw [nothing, List.append_nil] at parts
    rw [parts]
    exact List.forall_mem_append.2 ⟨frontBlank, backBlank⟩
  · intro blank
    have padded : strip (cs ++ [] ++ []) = strip [] := strip_pad blank (List.forall_mem_nil _)
    rw [List.append_nil, List.append_nil] at padded
    exact padded

/-- Characters that are no blanks are all left. -/
theorem mem_strip_iff {c : Char} (content : isBlank c = false) : c ∈ strip cs ↔ c ∈ cs := by
  obtain ⟨⟨front, back, parts, frontBlank, backBlank⟩, _, _⟩ := stripped_strip cs
  have absent {blanks : List Char} (blank : ∀ c ∈ blanks, isBlank c = true) : c ∉ blanks := by
    intro member
    rw [blank c member] at content
    contradiction
  have inside : c ∈ front ++ strip cs ++ back ↔ c ∈ strip cs := by
    rw [List.mem_append, List.mem_append, or_iff_left (absent backBlank),
      or_iff_right (absent frontBlank)]
  rw [← inside, ← parts]

end ShaderChain.Text
