import Mathlib.Data.List.TakeDrop
import ShaderChain.Json.Printer
import ShaderChain.Json.Reader
import ShaderChain.Proofs.Number.Decimal

/-!
# Strings and integers in JSON read back

What is written for a character of a string is read as this character, whatever
follows (`stringBody?_escapeChar`), so a text in quotes reads back
(`string?_escaped`). The decimal text of an integer reads back if nothing follows
that would belong to it (`EndsNumber`, `numberText?_text`).
-/

set_option autoImplicit false

namespace ShaderChain.Json

/-! ## Strings -/

theorem hexValue?_hexDigit {d : Nat} (small : d < 16) :
    Text.hexValue? (Text.hexDigit d) = some d := by
  have all : ∀ d < 16, Text.hexValue? (Text.hexDigit d) = some d := by decide
  exact all d small

/-- The escape of a control character by its number. -/
theorem unicodeEscape?_control {c : Char} (control : c.toNat < 0x20) (more : List Char) :
    unicodeEscape?
        ('0' :: '0' :: Text.hexDigit (c.toNat / 16) :: Text.hexDigit (c.toNat % 16) :: more) =
      some (some c, more) := by
  have high := hexValue?_hexDigit (d := c.toNat / 16) (by omega)
  have low := hexValue?_hexDigit (d := c.toNat % 16) (by omega)
  have sum : c.toNat / 16 * 16 + c.toNat % 16 = c.toNat := by omega
  have zero : Text.hexValue? '0' = some 0 := rfl
  have number : Text.hexNumberFrom? 0 ['0', '0', Text.hexDigit (c.toNat / 16),
      Text.hexDigit (c.toNat % 16)] = some c.toNat := by
    simp [Text.hexNumberFrom?, zero, high, low, sum]
  have noFirst : ¬ (decide (0xD800 ≤ c.toNat) && decide (c.toNat < 0xDC00)) = true := by
    simp
    omega
  have noSecond : ¬ (decide (0xDC00 ≤ c.toNat) && decide (c.toNat < 0xE000)) = true := by
    simp
    omega
  rw [unicodeEscape?, hex4?, number]
  dsimp only [Option.map_some]
  rw [if_neg noFirst, if_neg noSecond, Char.ofNat_toNat]

/-- An escape of one letter reads back. -/
theorem stringBody?_letter {letter c : Char} (noNumber : letter ≠ 'u')
    (stands : escaped? letter = some c) (fuel : Nat) (more : List Char) :
    stringBody? (fuel + 1) ('\\' :: letter :: more) =
      (stringBody? fuel more).map fun found => (found.1.map (c :: ·), found.2) := by
  rw [stringBody?, stands]
  exact noNumber

/-- **What is written for a character** is read as this character. -/
theorem stringBody?_escapeChar (c : Char) (fuel : Nat) (more : List Char) :
    stringBody? (fuel + 1) (escapeChar c ++ more) =
      (stringBody? fuel more).map fun found => (found.1.map (c :: ·), found.2) := by
  by_cases quote : c = '"'
  · subst quote
    exact stringBody?_letter (by decide) rfl fuel more
  by_cases backslash : c = '\\'
  · subst backslash
    exact stringBody?_letter (by decide) rfl fuel more
  rw [escapeChar, if_neg quote, if_neg backslash]
  split
  case isTrue same =>
    subst same
    exact stringBody?_letter (by decide) rfl fuel more
  split
  case isTrue same =>
    subst same
    exact stringBody?_letter (by decide) rfl fuel more
  split
  case isTrue same =>
    subst same
    exact stringBody?_letter (by decide) rfl fuel more
  split
  case isTrue same =>
    subst same
    exact stringBody?_letter (by decide) rfl fuel more
  split
  case isTrue same =>
    subst same
    exact stringBody?_letter (by decide) rfl fuel more
  split
  case isTrue control =>
    change stringBody? (fuel + 1) ('\\' :: 'u' :: '0' :: '0' :: Text.hexDigit (c.toNat / 16) ::
      Text.hexDigit (c.toNat % 16) :: more) = _
    rw [stringBody?, unicodeEscape?_control control]
    rfl
  case isFalse ordinary =>
    have plain : ¬ (decide (c.toNat < 0x20) || decide (c = '\\')) = true := by
      simp [ordinary, backslash]
    rw [List.singleton_append, stringBody?, if_neg plain]
    · exact quote
    · exact fun _ same => (backslash same).elim
    · exact fun _ _ same => (backslash same).elim

theorem stringBody?_escaped (cs rest : List Char) {fuel : Nat} (enough : cs.length < fuel) :
    stringBody? fuel (cs.flatMap escapeChar ++ '"' :: rest) = some (some cs, rest) := by
  induction cs generalizing fuel with
  | nil =>
    rw [List.flatMap_nil, List.nil_append, stringBody?]
    exact Nat.ne_of_gt enough
  | cons c cs ih =>
    rw [List.length_cons] at enough
    obtain ⟨fuel, rfl⟩ : ∃ less, fuel = less + 1 := ⟨fuel - 1, by omega⟩
    rw [List.flatMap_cons, List.append_assoc, stringBody?_escapeChar, ih (by omega)]
    rfl

theorem escapeChar_ne_nil (c : Char) : escapeChar c ≠ [] := by
  unfold escapeChar
  intro none
  repeat' split at none
  all_goals cases none

theorem length_le_escaped (cs : List Char) : cs.length ≤ (cs.flatMap escapeChar).length := by
  induction cs with
  | nil => exact Nat.zero_le _
  | cons c cs ih =>
    have some := List.length_pos_iff.2 (escapeChar_ne_nil c)
    rw [List.flatMap_cons, List.length_append, List.length_cons]
    omega

/-- **A text in quotes reads back**, whatever follows it. -/
theorem string?_escaped (s : String) (rest : List Char) :
    string? (s.toList.flatMap escapeChar ++ '"' :: rest) = some (some s, rest) := by
  have enough : s.toList.length < (s.toList.flatMap escapeChar ++ '"' :: rest).length + 1 := by
    have := length_le_escaped s.toList
    rw [List.length_append]
    omega
  rw [string?, stringBody?_escaped _ _ enough, Option.map_some, Option.map_some,
    String.ofList_toList]

theorem toList_quote (s : String) : (quote s).toList = '"' :: (s.toList.flatMap escapeChar ++ ['"']) :=
  String.toList_ofList

/-! ## Integers -/

/-- What may follow an integer: nothing that would belong to a number. -/
def EndsNumber (rest : List Char) : Prop :=
  ∀ c, rest.head? = some c → c.isDigit = false ∧ c ≠ '.' ∧ c ≠ 'e' ∧ c ≠ 'E'

theorem endsNumber_cons {c : Char} (rest : List Char)
    (ends : c.isDigit = false ∧ c ≠ '.' ∧ c ≠ 'e' ∧ c ≠ 'E') : EndsNumber (c :: rest) := by
  intro first same
  cases same
  exact ends

theorem digitsOf_append {digits rest : List Char} (are : ∀ c ∈ digits, c.isDigit = true)
    (ends : EndsNumber rest) : digitsOf (digits ++ rest) = (digits, rest) := by
  have taken : rest.takeWhile Char.isDigit = [] ∧ rest.dropWhile Char.isDigit = rest := by
    cases rest with
    | nil => exact ⟨rfl, rfl⟩
    | cons c rest =>
      have noDigit := (ends c rfl).1
      exact ⟨List.takeWhile_cons_of_neg (by simp [noDigit]),
        List.dropWhile_cons_of_neg (by simp [noDigit])⟩
  rw [digitsOf, List.span_eq_takeWhile_dropWhile, List.takeWhile_append_of_pos are,
    List.dropWhile_append_of_pos are, taken.1, taken.2, List.append_nil]

theorem fraction?_of_ends {rest : List Char} (ends : EndsNumber rest) :
    fraction? rest = some ([], rest) := by
  rw [fraction?]
  intro more point
  exact (ends '.' (by rw [point]; rfl)).2.1 rfl

theorem exponent?_of_ends {rest : List Char} (ends : EndsNumber rest) :
    exponent? rest = some (false, [], rest) := by
  cases rest with
  | nil => rfl
  | cons c rest =>
    obtain ⟨-, -, small, capital⟩ := ends c rfl
    unfold exponent?
    exact if_neg (by simp [small, capital])

/-- Digits after a sign, if there is one, are a number without fraction and exponent. -/
theorem numberText?_digits (negative : Bool) {digits rest : List Char}
    (decimal : Integer.Decimal digits) (ends : EndsNumber rest) :
    numberText? ((if negative then ['-'] else []) ++ digits ++ rest) =
      some (⟨negative, digits, [], false, []⟩, rest) := by
  obtain ⟨first, others, rfl⟩ := List.exists_cons_of_ne_nil decimal.some
  have digit := decimal.digits first List.mem_cons_self
  have whole : ¬ ((first :: others).isEmpty ||
      ((first :: others).head? == some '0' && (first :: others).length != 1)) = true := by
    intro refused
    rw [List.isEmpty_cons, Bool.false_or, Bool.and_eq_true, beq_iff_eq, bne_iff_ne] at refused
    obtain ⟨zero, more⟩ := refused
    cases zero
    rw [decimal.zero others rfl] at more
    exact more rfl
  unfold numberText?
  split
  rename_i sign afterSign signed
  have front : (sign, afterSign) = (negative, first :: others ++ rest) := by
    rw [← signed]
    cases negative with
    | true => rfl
    | false =>
      split
      case h_1 more same =>
        cases same
        cases digit
      case h_2 => rfl
  cases front
  rw [digitsOf_append decimal.digits ends]
  dsimp only
  rw [if_neg whole, fraction?_of_ends ends]
  dsimp only
  rw [exponent?_of_ends ends]

/-- The value of digits without fraction and exponent. -/
theorem value_digits (i : Int) (low : -(signedLimit : Int) ≤ i) (high : i < unsignedLimit) :
    NumberText.value ⟨decide (i < 0), Nat.toDigits 10 i.natAbs, [], false, []⟩ = .int i := by
  have written : decimalFrom 0 (Nat.toDigits 10 i.natAbs) = i.natAbs :=
    Integer.foldl_toDigits i.natAbs
  rw [signedLimit] at low
  rw [unsignedLimit] at high
  unfold NumberText.value
  dsimp only
  rw [written]
  by_cases negative : i < 0
  · have small : i.natAbs ≤ signedLimit := by
      rw [signedLimit]
      omega
    have positive : 0 < i.natAbs := by omega
    have same : -(i.natAbs : Int) = i := by omega
    rw [if_neg (by simp [negative]), if_pos (by simp only [negative, positive, small]; rfl), same]
  · have small : i.natAbs < unsignedLimit := by
      rw [unsignedLimit]
      omega
    have same : (i.natAbs : Int) = i := by omega
    rw [if_pos (by simp only [negative, small]; rfl), same]

/-- **An integer reads back** if nothing follows that belongs to a number. -/
theorem numberText?_text {i : Int} (low : -(signedLimit : Int) ≤ i) (high : i < unsignedLimit)
    {rest : List Char} (ends : EndsNumber rest) :
    (numberText? ((Integer.text i).toList ++ rest)).map (fun found => (found.1.value, found.2)) =
      some (.int i, rest) := by
  have text : (Integer.text i).toList =
      (if decide (i < 0) = true then ['-'] else []) ++ Nat.toDigits 10 i.natAbs := by
    rw [Integer.toList_text]
    simp
  rw [text, numberText?_digits _ (Integer.toDigits_decimal _) ends, Option.map_some,
    value_digits i low high]

end ShaderChain.Json
