import ShaderChain.Parameter.Basic
import ShaderChain.Proofs.Number.Integer
import ShaderChain.Proofs.Text.Blank
import ShaderChain.Proofs.Text.Case

/-!
# Exactly which texts a parameter takes

What a raw text means to a kind of parameter is a relation of its own
(`ParameterKind.Denotes`), and so is what a kind has against a text, with the
reason in words (`ParameterKind.Refuses`). For truth values and integers the
relations speak of the text without the blanks at its ends, for all other kinds
of the text as it is.

Every text either means something or is refused (`denotes_or_refuses`), and
parsing gives what the relations say (`parse_of_denotes`, `parse_of_refuses`).
Hence parsing is exact (`Parameter.parse_exact`).
-/

set_option autoImplicit false

namespace ShaderChain

namespace ParameterKind

/-- What a raw text means to a kind. -/
inductive Denotes (raw : String) : ParameterKind → ArgumentValue → Prop where
  | string : Denotes raw .string (.string raw)
  | isTrue {core : List Char} (stripped : Text.Stripped raw.toList core)
      (word : Text.SameWord core "true".toList) : Denotes raw .bool (.bool true)
  | isFalse {core : List Char} (stripped : Text.Stripped raw.toList core)
      (word : Text.SameWord core "false".toList) : Denotes raw .bool (.bool false)
  | int {min max : Option Int64} {core : List Char} {value : Int64}
      (stripped : Text.Stripped raw.toList core) (literal : Integer.Literal core value.toInt)
      (low : ∀ b ∈ min, b ≤ value) (high : ∀ b ∈ max, value ≤ b) :
      Denotes raw (.int min max) (.int value)
  | choice {allowed : List String} (listed : raw ∈ allowed) :
      Denotes raw (.choice allowed) (.string raw)
  | outputLanguage {allowed : List String} (listed : raw ∈ allowed) :
      Denotes raw (.outputLanguage allowed) (.string raw)

/-- What a kind has against a raw text, and the reason in words. The bounds of integers are looked
at in order, and only behind a literal of 64 bits. -/
inductive Refuses (raw : String) : ParameterKind → ParameterFault → String → Prop where
  | notBool {core : List Char} (stripped : Text.Stripped raw.toList core)
      (notTrue : ¬ Text.SameWord core "true".toList)
      (notFalse : ¬ Text.SameWord core "false".toList) :
      Refuses raw .bool .notBool "expected 'true' or 'false'"
  | notInteger {min max : Option Int64} {core : List Char} {fault : IntegerFault}
      (stripped : Text.Stripped raw.toList core) (misspelt : Integer.Misspelt core fault) :
      Refuses raw (.int min max) (.notInteger fault) ("not an integer: " ++ fault.message)
  | below {min max : Option Int64} {core : List Char} {value b : Int64}
      (stripped : Text.Stripped raw.toList core) (literal : Integer.Literal core value.toInt)
      (bound : b ∈ min) (under : value < b) :
      Refuses raw (.int min max) (.below b) ("must be at least " ++ Integer.text b.toInt)
  | above {min max : Option Int64} {core : List Char} {value b : Int64}
      (stripped : Text.Stripped raw.toList core) (literal : Integer.Literal core value.toInt)
      (low : ∀ b ∈ min, b ≤ value) (bound : b ∈ max) (beyond : b < value) :
      Refuses raw (.int min max) (.above b) ("must be at most " ++ Integer.text b.toInt)
  | notChoice {allowed : List String} (unlisted : raw ∉ allowed) :
      Refuses raw (.choice allowed) (.notListed "enum" allowed)
        ("enum must be one of: " ++ Text.joined ", " allowed)
  | notLanguage {allowed : List String} (unlisted : raw ∉ allowed) :
      Refuses raw (.outputLanguage allowed) (.notListed "output language" allowed)
        ("output language must be one of: " ++ Text.joined ", " allowed)

/-! ## Truth values -/

variable {raw : String} {core : List Char}

/-- The word that a truth value is read from, in its case, is the text without the blanks at its
ends. -/
theorem word_iff {word : String} (small : Text.lowerAscii word = word)
    (stripped : Text.Stripped raw.toList core) :
    Text.lowerAscii (Text.trim raw) = word ↔ Text.SameWord core word.toList := by
  rw [Text.stripped_iff_toList_trim.1 stripped, ← Text.lowerAscii_eq_iff, small]

theorem lowerAscii_true : Text.lowerAscii "true" = "true" := by decide

theorem lowerAscii_false : Text.lowerAscii "false" = "false" := by decide

theorem parseBool_of_true (stripped : Text.Stripped raw.toList core)
    (word : Text.SameWord core "true".toList) : parseBool raw = .ok (.bool true) := by
  rw [parseBool, if_pos ((word_iff lowerAscii_true stripped).2 word)]

theorem parseBool_of_false (stripped : Text.Stripped raw.toList core)
    (word : Text.SameWord core "false".toList) : parseBool raw = .ok (.bool false) := by
  have isFalse := (word_iff lowerAscii_false stripped).2 word
  rw [parseBool, isFalse]
  rfl

theorem parseBool_of_neither (stripped : Text.Stripped raw.toList core)
    (notTrue : ¬ Text.SameWord core "true".toList)
    (notFalse : ¬ Text.SameWord core "false".toList) : parseBool raw = .error .notBool := by
  rw [← word_iff lowerAscii_true stripped] at notTrue
  rw [← word_iff lowerAscii_false stripped] at notFalse
  rw [parseBool, if_neg notTrue, if_neg notFalse]

/-! ## Listed texts -/

theorem parseListed_of_mem {kindName : String} {allowed : List String} (listed : raw ∈ allowed) :
    parseListed kindName allowed raw = .ok (.string raw) := by
  rw [parseListed, if_pos (List.contains_iff_mem.2 listed)]

theorem parseListed_of_not_mem {kindName : String} {allowed : List String}
    (unlisted : raw ∉ allowed) :
    parseListed kindName allowed raw = .error (.notListed kindName allowed) := by
  rw [parseListed, if_neg fun contained => unlisted (List.contains_iff_mem.1 contained)]

/-! ## Integers between bounds -/

section Integers

variable {min max : Option Int64} {value b : Int64} {fault : IntegerFault}

theorem read_of_literal (stripped : Text.Stripped raw.toList core)
    (literal : Integer.Literal core value.toInt) : Integer.read (Text.trim raw) = .ok value := by
  rw [Integer.read_eq_ok_iff, ← Text.stripped_iff_toList_trim.1 stripped]
  exact literal

theorem parseInt_of_misspelt (stripped : Text.Stripped raw.toList core)
    (misspelt : Integer.Misspelt core fault) :
    parseInt min max raw = .error (.notInteger fault) := by
  rw [Text.stripped_iff_toList_trim.1 stripped] at misspelt
  rw [parseInt, Integer.read_eq_error_iff.2 misspelt]

/-- No bound from below is violated by values that are not under it. -/
theorem filter_min_eq_none (low : ∀ b ∈ min, b ≤ value) : min.filter (value < ·) = none := by
  rw [Option.filter_eq_none_iff]
  intro b isMin
  simpa using low b isMin

theorem filter_max_eq_none (high : ∀ b ∈ max, value ≤ b) : max.filter (· < value) = none := by
  rw [Option.filter_eq_none_iff]
  intro b isMax
  simpa using high b isMax

theorem parseInt_of_within (stripped : Text.Stripped raw.toList core)
    (literal : Integer.Literal core value.toInt) (low : ∀ b ∈ min, b ≤ value)
    (high : ∀ b ∈ max, value ≤ b) : parseInt min max raw = .ok (.int value) := by
  rw [parseInt, read_of_literal stripped literal]
  dsimp only
  rw [filter_min_eq_none low, filter_max_eq_none high]

theorem parseInt_of_below (stripped : Text.Stripped raw.toList core)
    (literal : Integer.Literal core value.toInt) (bound : b ∈ min) (under : value < b) :
    parseInt min max raw = .error (.below b) := by
  have violated : min.filter (value < ·) = some b := by
    rw [Option.mem_def.1 bound, Option.filter_some, if_pos (decide_eq_true under)]
  rw [parseInt, read_of_literal stripped literal]
  dsimp only
  rw [violated]

theorem parseInt_of_above (stripped : Text.Stripped raw.toList core)
    (literal : Integer.Literal core value.toInt) (low : ∀ b ∈ min, b ≤ value) (bound : b ∈ max)
    (beyond : b < value) : parseInt min max raw = .error (.above b) := by
  have violated : max.filter (· < value) = some b := by
    rw [Option.mem_def.1 bound, Option.filter_some, if_pos (decide_eq_true beyond)]
  rw [parseInt, read_of_literal stripped literal]
  dsimp only
  rw [filter_min_eq_none low, violated]

/-- A value is in the bounds, or under the lower one, or only beyond the upper one. -/
theorem bounds_cases (min max : Option Int64) (value : Int64) :
    ((∀ b ∈ min, b ≤ value) ∧ ∀ b ∈ max, value ≤ b) ∨ (∃ b ∈ min, value < b) ∨
      ((∀ b ∈ min, b ≤ value) ∧ ∃ b ∈ max, b < value) := by
  by_cases low : ∀ b ∈ min, b ≤ value
  · by_cases high : ∀ b ∈ max, value ≤ b
    · exact .inl ⟨low, high⟩
    · push Not at high
      obtain ⟨b, bound, beyond⟩ := high
      exact .inr (.inr ⟨low, b, bound, Int64.not_le.1 beyond⟩)
  · push Not at low
    obtain ⟨b, bound, under⟩ := low
    exact .inr (.inl ⟨b, bound, Int64.not_le.1 under⟩)

end Integers

/-! ## Parsing -/

variable {kind : ParameterKind}

theorem parse_of_denotes {value : ArgumentValue} (denotes : Denotes raw kind value) :
    kind.parse raw = .ok value := by
  cases denotes with
  | string => rfl
  | isTrue stripped word => rw [parse, parseBool_of_true stripped word]
  | isFalse stripped word => rw [parse, parseBool_of_false stripped word]
  | int stripped literal low high => rw [parse, parseInt_of_within stripped literal low high]
  | choice listed => rw [parse, parseListed_of_mem listed]
  | outputLanguage listed => rw [parse, parseListed_of_mem listed]

theorem parse_of_refuses {fault : ParameterFault} {reason : String}
    (refuses : Refuses raw kind fault reason) : kind.parse raw = .error fault := by
  cases refuses with
  | notBool stripped notTrue notFalse => rw [parse, parseBool_of_neither stripped notTrue notFalse]
  | notInteger stripped misspelt => rw [parse, parseInt_of_misspelt stripped misspelt]
  | below stripped literal bound under => rw [parse, parseInt_of_below stripped literal bound under]
  | above stripped literal low bound beyond =>
    rw [parse, parseInt_of_above stripped literal low bound beyond]
  | notChoice unlisted => rw [parse, parseListed_of_not_mem unlisted]
  | notLanguage unlisted => rw [parse, parseListed_of_not_mem unlisted]

/-- The reason of a refusal is that of its fault. -/
theorem Refuses.reason_eq {fault : ParameterFault} {reason : String}
    (refuses : Refuses raw kind fault reason) : reason = fault.message := by
  cases refuses <;> rfl

/-- **A text means something to a kind or is refused by it.** -/
theorem denotes_or_refuses (kind : ParameterKind) (raw : String) :
    (∃ value, Denotes raw kind value) ∨ ∃ fault reason, Refuses raw kind fault reason := by
  have stripped := Text.stripped_strip raw.toList
  cases kind with
  | string => exact .inl ⟨_, .string⟩
  | bool =>
    by_cases isTrue : Text.SameWord (Text.strip raw.toList) "true".toList
    · exact .inl ⟨_, .isTrue stripped isTrue⟩
    by_cases isFalse : Text.SameWord (Text.strip raw.toList) "false".toList
    · exact .inl ⟨_, .isFalse stripped isFalse⟩
    exact .inr ⟨_, _, .notBool stripped isTrue isFalse⟩
  | int min max =>
    have whole : (Text.trim raw).toList = Text.strip raw.toList := String.toList_ofList
    cases isRead : Integer.read (Text.trim raw) with
    | error fault =>
      have misspelt := Integer.read_eq_error_iff.1 isRead
      rw [whole] at misspelt
      exact .inr ⟨_, _, .notInteger stripped misspelt⟩
    | ok value =>
      have literal := Integer.read_eq_ok_iff.1 isRead
      rw [whole] at literal
      rcases bounds_cases min max value with
        ⟨low, high⟩ | ⟨b, bound, under⟩ | ⟨low, b, bound, beyond⟩
      · exact .inl ⟨_, .int stripped literal low high⟩
      · exact .inr ⟨_, _, .below stripped literal bound under⟩
      · exact .inr ⟨_, _, .above stripped literal low bound beyond⟩
  | choice allowed =>
    by_cases listed : raw ∈ allowed
    · exact .inl ⟨_, .choice listed⟩
    · exact .inr ⟨_, _, .notChoice listed⟩
  | outputLanguage allowed =>
    by_cases listed : raw ∈ allowed
    · exact .inl ⟨_, .outputLanguage listed⟩
    · exact .inr ⟨_, _, .notLanguage listed⟩

theorem parse_eq_ok_iff {value : ArgumentValue} :
    kind.parse raw = .ok value ↔ Denotes raw kind value := by
  constructor
  · intro parsed
    rcases denotes_or_refuses kind raw with ⟨other, denotes⟩ | ⟨fault, reason, refuses⟩
    · rw [parse_of_denotes denotes] at parsed
      cases parsed
      exact denotes
    · rw [parse_of_refuses refuses] at parsed
      cases parsed
  · exact parse_of_denotes

theorem parse_eq_error_iff {fault : ParameterFault} :
    kind.parse raw = .error fault ↔ Refuses raw kind fault fault.message := by
  constructor
  · intro failed
    rcases denotes_or_refuses kind raw with ⟨value, denotes⟩ | ⟨other, reason, refuses⟩
    · rw [parse_of_denotes denotes] at failed
      cases failed
    · rw [parse_of_refuses refuses] at failed
      cases failed
      rw [← refuses.reason_eq]
      exact refuses
  · exact parse_of_refuses

end ParameterKind

namespace Parameter

theorem parse_eq_ok_iff {p : Parameter} {raw : String} {value : ArgumentValue} :
    p.parse raw = .ok value ↔ p.kind.parse raw = .ok value := by
  rw [parse]
  cases p.kind.parse raw with
  | error fault => exact ⟨nofun, nofun⟩
  | ok found => simp only [Except.mapError, Except.ok.injEq]

theorem parse_eq_error_iff {p : Parameter} {raw : String} {error : ParameterError} :
    p.parse raw = .error error ↔
      error.name = p.name ∧ error.raw = raw ∧ p.kind.parse raw = .error error.fault := by
  obtain ⟨name, text, reason⟩ := error
  rw [parse]
  cases p.kind.parse raw with
  | error fault =>
    simp only [Except.mapError, Except.error.injEq, ParameterError.mk.injEq]
    rw [eq_comm, @eq_comm _ raw]
  | ok found => exact ⟨nofun, fun parts => nomatch parts.2.2⟩

/-- **Parsing is exact.** There is one way to strip a raw text of the blanks at its ends. The text
has the value that it denotes, and is otherwise refused under the parameter's name, with the text
as it was given and the reason for what is wrong first. A literal outside the range of 64 bits is
too large or too small, of whatever length it is. -/
theorem parse_exact (p : Parameter) (raw : String) :
    (∃! core, Text.Stripped raw.toList core) ∧
    (∀ value, p.parse raw = .ok value ↔ p.kind.Denotes raw value) ∧
    (∀ error, p.parse raw = .error error ↔
      error.name = p.name ∧ error.raw = raw ∧
        p.kind.Refuses raw error.fault error.fault.message) ∧
    ∀ min max core i, p.kind = .int min max → Text.Stripped raw.toList core →
      Integer.Literal core i →
      (Integer.greatest < i → p.parse raw = .error ⟨p.name, raw, .notInteger .tooLarge⟩) ∧
      (i < Integer.least → p.parse raw = .error ⟨p.name, raw, .notInteger .tooSmall⟩) := by
  refine ⟨⟨_, Text.stripped_strip raw.toList, fun core => Text.stripped_iff.1⟩, ?_, ?_, ?_⟩
  · intro value
    rw [parse_eq_ok_iff, ParameterKind.parse_eq_ok_iff]
  · intro error
    rw [parse_eq_error_iff, ParameterKind.parse_eq_error_iff]
  · intro min max core i isInt stripped literal
    have refused {fault : IntegerFault} (misspelt : Integer.Misspelt core fault) :
        p.parse raw = .error ⟨p.name, raw, .notInteger fault⟩ := by
      refine parse_eq_error_iff.2 ⟨rfl, rfl, ?_⟩
      rw [isInt, ParameterKind.parse, ParameterKind.parseInt_of_misspelt stripped misspelt]
    exact ⟨fun beyond => refused (literal.tooLarge beyond),
      fun under => refused (literal.tooSmall under)⟩

/-- Blanks, signs and case that do not matter, a bound, and numbers that are out of range before
or after a character that is no digit. -/
theorem parse_exact_overflow :
    let level := Parameter.integerIn "Level" (-5) 3 0
    let debug := Parameter.boolean "Debug" false
    level.kind.Denotes "\u00A0 +003\t" (.int 3) ∧
      debug.kind.Denotes " tRuE\n" (.bool true) ∧
      level.kind.Refuses "-6" (.below (-5)) "must be at least -5" ∧
      level.kind.Refuses " 9223372036854775808x" (.notInteger .tooLarge)
        "not an integer: number too large to fit in target type" ∧
      level.kind.Refuses " 922337203685477580x8" (.notInteger .invalidDigit)
        "not an integer: invalid digit found in string" ∧
      level.parse "\t-9223372036854775809" =
        .error ⟨"Level", "\t-9223372036854775809", .notInteger .tooSmall⟩ := by
  intro level debug
  have refuses (raw : String) (fault : ParameterFault)
      (failed : level.parse raw = .error ⟨"Level", raw, fault⟩) :
      level.kind.Refuses raw fault fault.message :=
    (((parse_exact level raw).2.2.1 _).1 failed).2.2
  refine ⟨?_, ?_, ?_, ?_, ?_, ?_⟩
  · exact ((parse_exact level _).2.1 _).1 (by decide +kernel)
  · exact ((parse_exact debug _).2.1 _).1 (by decide +kernel)
  · exact refuses _ (.below (-5)) (by decide +kernel)
  · exact refuses _ (.notInteger .tooLarge) (by decide +kernel)
  · exact refuses _ (.notInteger .invalidDigit) (by decide +kernel)
  · have stripped : Text.Stripped "\t-9223372036854775809".toList "-9223372036854775809".toList :=
      Text.stripped_iff.2 (by decide +kernel)
    have behind : Integer.Signed "-9223372036854775809".toList true "9223372036854775809".toList :=
      .minus
    have literal := Integer.Literal.mk behind (by decide) (by simp)
    exact ((parse_exact level _).2.2.2 _ _ _ _ rfl stripped literal).2 (by decide)

end Parameter

end ShaderChain
