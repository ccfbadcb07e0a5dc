import ShaderChain.Proofs.Toml.Quoting
import ShaderChain.Toml.Reader
import ShaderChain.Toml.Writer

/-!
# Lines read back

A written text is a sequence of lines and empty lines, and every line says one
statement: the header of a table, the header of an element, or a pair of a key
and a value. `Line` is what reading needs of a line: it says its statement
whatever follows its line break. Headers are such lines for every path
(`line_header`, `line_element`), pairs are for every value that reads back by
itself (`Rereads`, `line_pair`).

Lines one after the other read back as their statements (`statements?_of_writes`).
-/

set_option autoImplicit false

namespace ShaderChain.Toml

/-! ## Paths -/

/-- Nothing is skipped in front of a key. -/
theorem skipSpace_quoteKey (s : String) (rest : List Char) :
    skipSpace ((quoteKey s).toList ++ rest) = (quoteKey s).toList ++ rest := by
  obtain ⟨first, others, chars, begins⟩ := quoteKey_head s
  have noBlank : isSpace first = false := by
    rw [isSpace, beq_false_of_ne (begins.ne (by decide)), beq_false_of_ne (begins.ne (by decide))]
    rfl
  rw [chars, List.cons_append, skipSpace, List.dropWhile_cons_of_neg (by simp [noBlank])]

/-- What may stand behind a key: nothing that would belong to its last part, and no point. -/
structure EndsKey (rest : List Char) : Prop where
  notBare : ∀ c, rest.head? = some c → isBareKey c = false
  noPoint : ∀ more, skipSpace rest ≠ '.' :: more

theorem endsKey_bracket (rest : List Char) : EndsKey (']' :: rest) where
  notBare c same := by
    cases same
    rfl
  noPoint _ := nofun

theorem endsKey_equals (rest : List Char) : EndsKey (' ' :: '=' :: rest) where
  notBare c same := by
    cases same
    rfl
  noPoint _ := nofun

theorem toList_pathText_cons (part next : String) (path : List String) :
    (pathText (part :: next :: path)).toList =
      (quoteKey part).toList ++ '.' :: (pathText (next :: path)).toList := by
  simp [pathText, Text.joined]

theorem pathText_head {path : List String} (nonempty : path ≠ []) :
    ∃ first others, (pathText path).toList = first :: others ∧ BeginsKey first := by
  obtain ⟨part, path, rfl⟩ := List.exists_cons_of_ne_nil nonempty
  obtain ⟨first, others, chars, begins⟩ := quoteKey_head part
  cases path with
  | nil => exact ⟨first, others, chars, begins⟩
  | cons next path =>
    refine ⟨first, others ++ '.' :: (pathText (next :: path)).toList, ?_, begins⟩
    rw [toList_pathText_cons, chars, List.cons_append]

/-- A path reads back. -/
theorem key?_pathText {path : List String} (nonempty : path ≠ []) {rest : List Char}
    (ends : EndsKey rest) {fuel : Nat} (enough : path.length ≤ fuel) :
    key? fuel ((pathText path).toList ++ rest) = some (path, skipSpace rest) := by
  induction path generalizing fuel with
  | nil => exact absurd rfl nonempty
  | cons part path ih =>
    rw [List.length_cons] at enough
    obtain ⟨fuel, rfl⟩ : ∃ less, fuel = less + 1 := ⟨fuel - 1, by omega⟩
    cases path with
    | nil =>
      change key? (fuel + 1) ((quoteKey part).toList ++ rest) = _
      rw [key?, skipSpace_quoteKey, simpleKey?_quoteKey part ends.notBare]
      dsimp only
      split
      case h_1 more point => exact absurd point (ends.noPoint more)
      case h_2 => rfl
    | cons next path =>
      have point : ∀ c, ('.' :: ((pathText (next :: path)).toList ++ rest)).head? = some c →
          isBareKey c = false := by
        intro c same
        cases same
        rfl
      rw [toList_pathText_cons, List.append_assoc, List.cons_append, key?, skipSpace_quoteKey,
        simpleKey?_quoteKey part point]
      change (key? fuel ((pathText (next :: path)).toList ++ rest)).map _ = _
      rw [ih (List.cons_ne_nil _ _) (by omega)]
      rfl

/-- Every part of a path is written with a character at least. -/
theorem length_le_pathText (path : List String) : path.length ≤ (pathText path).toList.length := by
  induction path with
  | nil => exact Nat.zero_le _
  | cons part path ih =>
    obtain ⟨first, others, chars, -⟩ := quoteKey_head part
    cases path with
    | nil =>
      change 1 ≤ (quoteKey part).toList.length
      rw [chars, List.length_cons]
      omega
    | cons next path =>
      rw [toList_pathText_cons, chars]
      simp only [List.length_append, List.length_cons] at ih ⊢
      omega

/-! ## Lines -/

/-- A character that a line can begin with. -/
def BeginsLine (c : Char) : Prop := c = '[' ∨ BeginsKey c

instance : DecidablePred BeginsLine := fun c => inferInstanceAs (Decidable (c = '[' ∨ BeginsKey c))

namespace BeginsLine

variable {c : Char}

theorem ne (begins : BeginsLine c) {other : Char} (not : ¬ BeginsLine other) : c ≠ other :=
  fun same => not (same ▸ begins)

theorem newline?_eq (begins : BeginsLine c) (rest : List Char) : newline? (c :: rest) = none := by
  rw [newline?]
  · exact fun _ same => begins.ne (by decide) (List.cons.inj same).1
  · exact fun _ same => begins.ne (by decide) (List.cons.inj same).1

/-- No blank, comment or line break begins like a line. -/
theorem skipLines_eq (begins : BeginsLine c) (fuel : Nat) (rest : List Char) :
    skipLines fuel (c :: rest) = c :: rest := by
  cases fuel with
  | zero => rfl
  | succ fuel =>
    have blank : isSpace c = false := by
      rw [isSpace, beq_false_of_ne (begins.ne (by decide)), beq_false_of_ne (begins.ne (by decide))]
      rfl
    have kept : skipComment (skipSpace (c :: rest)) = c :: rest := by
      rw [skipSpace, List.dropWhile_cons_of_neg (by simp [blank]), skipComment]
      exact fun _ same => begins.ne (by decide) (List.cons.inj same).1
    rw [skipLines, kept, begins.newline?_eq]

/-- No mark of an encoding begins like a line. -/
theorem skipMark_eq (begins : BeginsLine c) (rest : List Char) :
    skipMark (c :: rest) = c :: rest := by
  refine if_neg fun mark => ?_
  have same : c = Char.ofNat 0xFEFF := by rw [← mark, Char.ofNat_toNat]
  exact begins.ne (by decide) same

end BeginsLine

/-- The characters of a line without its line break: they say a statement, whatever follows. -/
structure Line (line : List Char) (s : Statement) : Prop where
  begins : ∃ first others, line = first :: others ∧ BeginsLine first
  read : ∀ rest, statement? (line ++ '\n' :: rest) = some (s, '\n' :: rest)

theorem headerKey?_pathText {path : List String} (nonempty : path ≠ []) (rest : List Char) :
    headerKey? ((pathText path).toList ++ ']' :: rest) = some (path, rest) := by
  have enough : path.length ≤ ((pathText path).toList ++ ']' :: rest).length + 1 := by
    have := length_le_pathText path
    rw [List.length_append]
    omega
  rw [headerKey?, key?_pathText nonempty (endsKey_bracket rest) enough]
  rfl

/-- The header of a table is a line. -/
theorem line_header {path : List String} (nonempty : path ≠ []) :
    Line ('[' :: ((pathText path).toList ++ [']'])) (.header path) where
  begins := ⟨_, _, rfl, .inl rfl⟩
  read rest := by
    obtain ⟨first, others, chars, begins⟩ := pathText_head nonempty
    have noElement : ∀ more, (pathText path).toList ++ ']' :: '\n' :: rest ≠ '[' :: more := by
      intro more same
      rw [chars] at same
      exact begins.ne (by decide) (List.cons.inj same).1
    rw [List.cons_append, List.append_assoc]
    change statement? ('[' :: ((pathText path).toList ++ ']' :: '\n' :: rest)) = _
    rw [statement?, headerKey?_pathText nonempty]
    · rfl
    · exact noElement

/-- The header of an element is a line. -/
theorem line_element {path : List String} (nonempty : path ≠ []) :
    Line ('[' :: '[' :: ((pathText path).toList ++ [']', ']'])) (.element path) where
  begins := ⟨_, _, rfl, .inl rfl⟩
  read rest := by
    have marks : [']', ']'] ++ '\n' :: rest = ']' :: ']' :: '\n' :: rest := rfl
    rewrite [List.cons_append, List.cons_append, List.append_assoc, statement?, marks,
      headerKey?_pathText nonempty]
    rfl

/-! ## Pairs -/

/-- The text of an entry that stands in a line. -/
def pairText (key : String) (value : Document) : String :=
  quoteKey key ++ " = " ++ inlineText value ++ "\n"

/-- A value that is written in a line and reads back in it. -/
structure Rereads (value : Document) : Prop where
  inLine : ∀ key, lineOf? (key, value) = some (pairText key value)
  noBlank : ∀ rest,
    skipSpace ((inlineText value).toList ++ rest) = (inlineText value).toList ++ rest
  read : ∀ rest, value? depthLimit ((inlineText value).toList ++ '\n' :: rest) =
    some (value, '\n' :: rest)

/-- A text is read as a value at every depth. -/
theorem value?_quoteValue (depth : Nat) (s : String) {rest : List Char}
    (noDouble : rest.head? ≠ some '"') (noSingle : rest.head? ≠ some '\'') :
    value? depth ((quoteValue s).toList ++ rest) = some (.text s, rest) := by
  obtain ⟨first, others, chars, quote⟩ := quoteValue_head s
  have reads := string?_quoteValue s noDouble noSingle
  rw [chars, List.cons_append] at reads ⊢
  rcases quote with rfl | rfl
  · rw [value?, reads]
    rfl
  · rw [value?, reads]
    rfl

theorem rereads_text (s : String) : Rereads (.text s) where
  inLine _ := rfl
  noBlank rest := by
    obtain ⟨first, others, chars, quote⟩ := quoteValue_head s
    rw [inlineText, chars]
    rcases quote with rfl | rfl
    · rfl
    · rfl
  read rest := by
    rw [inlineText]
    exact value?_quoteValue depthLimit s (by simp) (by simp)

theorem rereads_noItems : Rereads (.list []) where
  inLine _ := rfl
  noBlank _ := rfl
  read _ := rfl

/-- The line of an entry, without its line break. -/
def pairLine (key : String) (value : Document) : List Char :=
  (quoteKey key).toList ++ ' ' :: '=' :: ' ' :: (inlineText value).toList

/-- A pair is a line if its value reads back. -/
theorem line_pair (key : String) {value : Document} (rereads : Rereads value) :
    Line (pairLine key value) (.pair [key] value) where
  begins := by
    obtain ⟨first, others, chars, begins⟩ := quoteKey_head key
    exact ⟨first, _, by rw [pairLine, chars, List.cons_append], .inr begins⟩
  read rest := by
    obtain ⟨first, others, chars, begins⟩ := quoteKey_head key
    have text : pairLine key value ++ '\n' :: rest =
        (pathText [key]).toList ++
          ' ' :: '=' :: ' ' :: ((inlineText value).toList ++ '\n' :: rest) := by
      simp [pairLine, pathText, Text.joined]
    have ends := endsKey_equals (' ' :: ((inlineText value).toList ++ '\n' :: rest))
    have noHeader : ∀ more, pairLine key value ++ '\n' :: rest ≠ '[' :: more := by
      intro more same
      rw [pairLine, chars] at same
      exact begins.ne (by decide) (List.cons.inj same).1
    have pair : pair? (value? depthLimit) (pairLine key value ++ '\n' :: rest) =
        some (([key], value), '\n' :: rest) := by
      rw [pair?, text,
        key?_pathText (List.cons_ne_nil key []) ends (Nat.succ_le_succ (Nat.zero_le _))]
      change (value? depthLimit (skipSpace ((inlineText value).toList ++ '\n' :: rest))).map _ = _
      rw [rereads.noBlank, rereads.read]
      rfl
    rw [statement?, pair]
    · rfl
    · exact fun more => noHeader ('[' :: more)
    · exact noHeader

/-! ## Texts -/

/-- The text consists of lines that say the statements, in order, and of empty lines. -/
inductive Writes : List Char → List Statement → Prop where
  | done : Writes [] []
  | blank {text : List Char} {statements : List Statement} (later : Writes text statements) :
    Writes ('\n' :: text) statements
  | line {line text : List Char} {s : Statement} {statements : List Statement} (tells : Line line s)
    (later : Writes text statements) : Writes (line ++ '\n' :: text) (s :: statements)

namespace Writes

variable {text more : List Char} {statements others : List Statement}

theorem append (first : Writes text statements) (second : Writes more others) :
    Writes (text ++ more) (statements ++ others) := by
  induction first with
  | done => exact second
  | blank _ ih => exact .blank ih
  | line tells _ ih =>
    rw [List.append_assoc, List.cons_append]
    exact .line tells ih

/-- Lines one after the other read back as what they say. -/
theorem statements?_eq (writes : Writes text statements) {fuel : Nat}
    (enough : text.length < fuel) :
    statements? fuel text = some statements := by
  induction writes generalizing fuel with
  | done =>
    obtain ⟨fuel, rfl⟩ : ∃ less, fuel = less + 1 := ⟨fuel - 1, by omega⟩
    rfl
  | blank _ ih =>
    obtain ⟨fuel, rfl⟩ : ∃ less, fuel = less + 1 := ⟨fuel - 1, by omega⟩
    rw [List.length_cons] at enough
    exact ih (Nat.lt_of_succ_lt enough)
  | @line line text s statements tells _ ih =>
    obtain ⟨fuel, rfl⟩ : ∃ less, fuel = less + 1 := ⟨fuel - 1, by omega⟩
    obtain ⟨first, rest, front, begins⟩ := tells.begins
    have read := tells.read text
    rw [front, List.cons_append] at read
    rw [front, List.cons_append, List.length_cons, List.length_append, List.length_cons] at enough
    rw [front, List.cons_append, statements?, begins.skipLines_eq]
    dsimp only
    have ended : endOfLine? ('\n' :: text) = some text := rfl
    rw [read]
    dsimp only
    rw [ended]
    dsimp only
    rw [ih (by omega)]
    rfl

/-- The first character of a text is no mark of an encoding. -/
theorem skipMark_eq (writes : Writes text statements) : skipMark text = text := by
  cases writes with
  | done => rfl
  | blank => rfl
  | line tells =>
    obtain ⟨first, rest, front, begins⟩ := tells.begins
    rw [front]
    exact begins.skipMark_eq _

end Writes

end ShaderChain.Toml
