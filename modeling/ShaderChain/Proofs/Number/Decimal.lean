import Mathlib.Data.Nat.Digits.Defs
import ShaderChain.Number.Integer

/-!
# Decimal integers read back

The decimal text of a number consists of digits, the first of which is zero only
if there is no other (`toDigits_decimal`), and the digits write the number again
(`foldl_toDigits`). Every reader of integers rests on these two facts, and on one
check that an integer is in a range, which those of 64 bits pass.
-/

set_option autoImplicit false

namespace ShaderChain.Integer

/-- Whether characters are decimal digits, a zero in front being the only one. -/
structure Decimal (cs : List Char) : Prop where
  some : cs ≠ []
  digits : ∀ c ∈ cs, c.isDigit = true
  zero : ∀ rest, cs = '0' :: rest → rest = []

/-- The digits of a number write it. -/
theorem foldl_toDigits (n : Nat) :
    (Nat.toDigits 10 n).foldl (fun n c => n * 10 + (c.toNat - 48)) 0 = n := by
  have written : Nat.ofDigitChars 10 (Nat.toDigits 10 n) 0 = n :=
    Nat.ofDigitChars_toDigits (by decide) (by decide)
  have step : (fun (n : Nat) (c : Char) => n * 10 + (c.toNat - 48)) =
      fun n c => 10 * n + (c.toNat - '0'.toNat) := by
    funext n c
    rw [Nat.mul_comm]
    rfl
  rw [step]
  exact written

/-- A zero in front is the only digit. -/
theorem eq_nil_of_toDigits {n : Nat} {rest : List Char} (digits : Nat.toDigits 10 n = '0' :: rest) :
    rest = [] := by
  induction n using Nat.strongRecOn generalizing rest with
  | ind n ih =>
    rw [Nat.toDigits_eq_if (by decide)] at digits
    by_cases small : n < 10
    · rw [if_pos small] at digits
      exact (List.cons.inj digits).2.symm
    · rw [if_neg small] at digits
      obtain ⟨first, others, more⟩ :=
        List.exists_cons_of_ne_nil (Nat.toDigits_ne_nil (b := 10) (n := n / 10))
      rw [more, List.cons_append] at digits
      obtain ⟨rfl, -⟩ := List.cons.inj digits
      have none : others = [] := ih (n / 10) (by omega) more
      have written := foldl_toDigits (n / 10)
      rw [more, none] at written
      change 0 = n / 10 at written
      omega

theorem toDigits_decimal (n : Nat) : Decimal (Nat.toDigits 10 n) where
  some := Nat.toDigits_ne_nil
  digits _ member := Nat.isDigit_of_mem_toDigits (by decide) (by decide) member
  zero _ digits := eq_nil_of_toDigits digits

/-- **The text of an integer** is the digits of its size, after a sign if it is negative. -/
theorem toList_text (i : Int) :
    (text i).toList = (if i < 0 then ['-'] else []) ++ Nat.toDigits 10 i.natAbs := by
  rw [text, naturalText]
  split
  · rw [String.toList_append, String.toList_ofList, String.toList_ofList]
  · rw [String.toList_ofList]
    rfl

/-- The text of an integer begins with a digit or a sign. -/
theorem text_head (i : Int) : ∃ c rest, (text i).toList = c :: rest ∧
    (c = '-' ∨ c.isDigit = true) := by
  rw [toList_text]
  by_cases negative : i < 0
  · rw [if_pos negative]
    exact ⟨'-', _, rfl, .inl rfl⟩
  · rw [if_neg negative]
    have decimal := toDigits_decimal i.natAbs
    obtain ⟨first, others, digits⟩ := List.exists_cons_of_ne_nil decimal.some
    refine ⟨first, others, digits, .inr ?_⟩
    exact decimal.digits first (digits ▸ List.mem_cons_self)

/-- It ends with a digit. -/
theorem text_last (i : Int) : ∃ c, (text i).toList.getLast? = some c ∧ c.isDigit = true := by
  have decimal := toDigits_decimal i.natAbs
  refine ⟨_, ?_, decimal.digits _ (List.getLast_mem decimal.some)⟩
  rw [toList_text, List.getLast?_append, List.getLast?_eq_some_getLast decimal.some,
    Option.some_or]

/-! ## Ranges -/

/-- An integer in a range passes the check for it. -/
theorem within_eq_true {first last i : Int} (low : first ≤ i) (high : i ≤ last) :
    (decide (first ≤ i) && decide (i ≤ last)) = true := by
  rw [decide_eq_true low, decide_eq_true high, Bool.and_self]

theorem least_le_toInt (value : Int64) : least ≤ value.toInt := value.le_toInt

theorem toInt_le_greatest (value : Int64) : value.toInt ≤ greatest :=
  Int.le_sub_one_of_lt value.toInt_lt

theorem toNat_le_greatestUnsigned (value : UInt64) : (value.toNat : Int) ≤ greatestUnsigned :=
  Int.le_sub_one_of_lt (Int.ofNat_lt.2 value.toNat_lt)

end ShaderChain.Integer
