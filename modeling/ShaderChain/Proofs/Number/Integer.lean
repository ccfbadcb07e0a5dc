import Mathlib.Data.Nat.Digits.Lemmas
import ShaderChain.Proofs.Number.Decimal

/-!
# Exactly which texts are integers

A decimal literal is digits, perhaps behind one sign, and writes a number of any
size (`Integer.Literal`). A text is read exactly if it is a literal whose number
has 64 bits (`read_eq_ok_iff`), and else the fault is the first thing that is
wrong when the text is read from left to right (`Integer.Misspelt`,
`read_eq_error_iff`): a character that is no digit, or the digit with which the
number leaves the range.

What carries both is that digits in the range can be taken off the front, the
number that they write being all that is remembered of them
(`readDigits_append`), and that digits are in the range or stop being so at one
of them (`within_or_stops`).
-/

set_option autoImplicit false

namespace ShaderChain.Integer

/-! ## Literals -/

/-- The number that digits write. -/
def magnitude (digits : List Char) : Nat :=
  Nat.ofDigits 10 (digits.map fun c => c.toNat - '0'.toNat).reverse

/-- The number that digits write behind a sign. -/
def signed (negative : Bool) (digits : List Char) : Int :=
  if negative then -(magnitude digits : Int) else magnitude digits

/-- What stands behind the sign of some characters, and whether the sign is a minus. -/
inductive Signed : List Char → Bool → List Char → Prop where
  | minus {digits : List Char} : Signed ('-' :: digits) true digits
  | plus {digits : List Char} : Signed ('+' :: digits) false digits
  | plain {c : Char} {rest : List Char} (noMinus : c ≠ '-') (noPlus : c ≠ '+') :
      Signed (c :: rest) false (c :: rest)

/-- Characters that write an integer: one digit or more, perhaps behind a sign. -/
inductive Literal (cs : List Char) : Int → Prop where
  | mk {negative : Bool} {digits : List Char} (behind : Signed cs negative digits)
      (some : digits ≠ []) (decimal : ∀ c ∈ digits, c.isDigit = true) :
      Literal cs (signed negative digits)

/-- Digits that write a number of 64 bits behind a sign. -/
structure Within (negative : Bool) (digits : List Char) : Prop where
  decimal : ∀ c ∈ digits, c.isDigit = true
  low : least ≤ signed negative digits
  high : signed negative digits ≤ greatest

/-- What ends the digits behind a sign: a character that is none, or a digit with which the number
leaves the range; the characters before it write a number in the range. -/
inductive Stops (negative : Bool) (cs : List Char) : IntegerFault → Prop where
  | invalidDigit {before : List Char} {c : Char} {after : List Char}
      (parts : cs = before ++ c :: after) (within : Within negative before)
      (none : c.isDigit = false) : Stops negative cs .invalidDigit
  | tooLarge {before : List Char} {c : Char} {after : List Char}
      (parts : cs = before ++ c :: after) (within : Within negative before)
      (digit : c.isDigit = true) (beyond : greatest < signed negative (before ++ [c])) :
      Stops negative cs .tooLarge
  | tooSmall {before : List Char} {c : Char} {after : List Char}
      (parts : cs = before ++ c :: after) (within : Within negative before)
      (digit : c.isDigit = true) (under : signed negative (before ++ [c]) < least) :
      Stops negative cs .tooSmall

/-- What is wrong first with characters, read from left to right: there are none, there is nothing
behind the sign, or something ends the digits. -/
inductive Misspelt : List Char → IntegerFault → Prop where
  | empty : Misspelt [] .empty
  | loneSign {cs : List Char} {negative : Bool} (behind : Signed cs negative []) :
      Misspelt cs .invalidDigit
  | stops {cs digits : List Char} {negative : Bool} {fault : IntegerFault}
      (behind : Signed cs negative digits) (stops : Stops negative digits fault) :
      Misspelt cs fault

/-! ## One digit more -/

theorem magnitude_append_singleton (digits : List Char) (c : Char) :
    magnitude (digits ++ [c]) = magnitude digits * 10 + (c.toNat - 48) := by
  rw [magnitude, magnitude, List.map_append, List.reverse_append, List.map_singleton,
    List.reverse_singleton, List.singleton_append, Nat.ofDigits_cons]
  change c.toNat - 48 + 10 * _ = _
  omega

/-- One digit more extends the number on the side of its sign. -/
theorem signed_append_singleton (negative : Bool) (digits : List Char) (c : Char) :
    signed negative (digits ++ [c]) = extend negative (signed negative digits) (c.toNat - 48) := by
  rw [signed, signed, extend, magnitude_append_singleton]
  split
  · omega
  · omega

theorem signed_nil (negative : Bool) : signed negative [] = 0 := by
  cases negative with
  | true => rfl
  | false => rfl

/-- A number above the range has no minus. -/
theorem negative_eq_false {negative : Bool} {digits : List Char}
    (beyond : greatest < signed negative digits) : negative = false := by
  cases negative with
  | true =>
    simp only [signed, if_true, greatest] at beyond
    omega
  | false => rfl

/-- A number below the range has a minus. -/
theorem negative_eq_true {negative : Bool} {digits : List Char}
    (under : signed negative digits < least) : negative = true := by
  cases negative with
  | true => rfl
  | false =>
    simp only [signed, Bool.false_eq_true, if_false, least] at under
    omega

/-- Fewer digits of a number in the range are in the range. -/
theorem Within.of_append_singleton {negative : Bool} {digits : List Char} {c : Char}
    (within : Within negative (digits ++ [c])) : Within negative digits := by
  obtain ⟨decimal, low, high⟩ := within
  rw [signed_append_singleton] at low high
  have range : least ≤ signed negative digits ∧ signed negative digits ≤ greatest := by
    cases negative with
    | true =>
      simp only [extend, signed, if_true, least, greatest] at *
      omega
    | false =>
      simp only [extend, signed, Bool.false_eq_true, if_false, least, greatest] at *
      omega
  exact ⟨fun d member => decimal d (List.mem_append_left _ member), range.1, range.2⟩

/-! ## Digits from the left -/

theorem digitValue?_eq (c : Char) :
    digitValue? c = if c.isDigit = true then some (c.toNat - 48) else none :=
  rfl

/-- A digit that stays in the range is read. -/
theorem readDigits_cons {negative : Bool} {before : List Char} {c : Char}
    (within : Within negative (before ++ [c])) (rest : List Char) :
    readDigits negative (signed negative before) (c :: rest) =
      readDigits negative (signed negative (before ++ [c])) rest := by
  have digit : c.isDigit = true :=
    within.decimal c (List.mem_append_right _ (List.mem_singleton_self c))
  have low := within.low
  have high := within.high
  rw [signed_append_singleton] at low high ⊢
  rw [readDigits, digitValue?_eq, if_pos digit]
  dsimp only
  rw [if_pos (within_eq_true low high)]

/-- **Digits in the range can be taken off the front.** -/
theorem readDigits_append {negative : Bool} {before : List Char} (within : Within negative before)
    (rest : List Char) :
    readDigits negative 0 (before ++ rest) = readDigits negative (signed negative before) rest := by
  induction before using List.reverseRecOn generalizing rest with
  | nil => rw [List.nil_append, signed_nil]
  | append_singleton before c ih =>
    rw [List.append_assoc, List.singleton_append, ih within.of_append_singleton,
      readDigits_cons within]

theorem readDigits_of_within {negative : Bool} {digits : List Char}
    (within : Within negative digits) :
    readDigits negative 0 digits = .ok (signed negative digits) := by
  have whole := readDigits_append within []
  rw [List.append_nil] at whole
  rw [whole, readDigits]

/-- A digit with which the number leaves the range is a fault. -/
theorem readDigits_of_outside {negative : Bool} {before : List Char} {c : Char}
    (digit : c.isDigit = true) (rest : List Char)
    (outside : ¬ (least ≤ signed negative (before ++ [c]) ∧
      signed negative (before ++ [c]) ≤ greatest)) :
    readDigits negative (signed negative before) (c :: rest) =
      .error (if negative then .tooSmall else .tooLarge) := by
  rw [signed_append_singleton] at outside
  rw [readDigits, digitValue?_eq, if_pos digit]
  dsimp only
  rw [if_neg (by simpa using outside)]

theorem readDigits_of_stops {negative : Bool} {cs : List Char} {fault : IntegerFault}
    (stops : Stops negative cs fault) : readDigits negative 0 cs = .error fault := by
  cases stops with
  | @invalidDigit before c after parts within none =>
    rw [parts, readDigits_append within, readDigits, digitValue?_eq, none]
    rfl
  | @tooLarge before c after parts within digit beyond =>
    rw [parts, readDigits_append within, readDigits_of_outside digit]
    · rw [negative_eq_false beyond]
      rfl
    · omega
  | @tooSmall before c after parts within digit under =>
    rw [parts, readDigits_append within, readDigits_of_outside digit]
    · rw [negative_eq_true under]
      rfl
    · omega

theorem Stops.ne_nil {negative : Bool} {cs : List Char} {fault : IntegerFault}
    (stops : Stops negative cs fault) : cs ≠ [] := by
  rintro rfl
  cases stops with
  | invalidDigit parts => simp at parts
  | tooLarge parts => simp at parts
  | tooSmall parts => simp at parts

/-- What ends digits is not changed by what follows. -/
theorem Stops.append {negative : Bool} {cs : List Char} {fault : IntegerFault}
    (stops : Stops negative cs fault) (more : List Char) : Stops negative (cs ++ more) fault := by
  have longer {before after : List Char} {c : Char} (parts : cs = before ++ c :: after) :
      cs ++ more = before ++ c :: (after ++ more) := by
    rw [parts, List.append_assoc, List.cons_append]
  cases stops with
  | invalidDigit parts within none => exact .invalidDigit (longer parts) within none
  | tooLarge parts within digit beyond => exact .tooLarge (longer parts) within digit beyond
  | tooSmall parts within digit under => exact .tooSmall (longer parts) within digit under

/-- **Characters are digits in the range, or something ends these.** -/
theorem within_or_stops (negative : Bool) (cs : List Char) :
    Within negative cs ∨ ∃ fault, Stops negative cs fault := by
  induction cs using List.reverseRecOn with
  | nil =>
    refine .inl ⟨List.forall_mem_nil _, ?_, ?_⟩
    · rw [signed_nil]
      decide
    · rw [signed_nil]
      decide
  | append_singleton before c ih =>
    rcases ih with within | ⟨fault, stops⟩
    · by_cases digit : c.isDigit = true
      · by_cases under : signed negative (before ++ [c]) < least
        · exact .inr ⟨_, .tooSmall rfl within digit under⟩
        by_cases beyond : greatest < signed negative (before ++ [c])
        · exact .inr ⟨_, .tooLarge rfl within digit beyond⟩
        refine .inl ⟨?_, Int.not_lt.1 under, Int.not_lt.1 beyond⟩
        intro d member
        rcases List.mem_append.1 member with earlier | last
        · exact within.decimal d earlier
        · exact List.mem_singleton.1 last ▸ digit
      · exact .inr ⟨_, .invalidDigit rfl within (Bool.eq_false_iff.2 digit)⟩
    · exact .inr ⟨fault, stops.append [c]⟩

/-! ## Literals from the left -/

theorem signed_or_nil (cs : List Char) :
    cs = [] ∨ ∃ negative digits, Signed cs negative digits := by
  cases cs with
  | nil => exact .inl rfl
  | cons c rest =>
    by_cases minus : c = '-'
    · exact .inr ⟨true, rest, minus ▸ .minus⟩
    by_cases plus : c = '+'
    · exact .inr ⟨false, rest, plus ▸ .plus⟩
    exact .inr ⟨false, c :: rest, .plain minus plus⟩

theorem readChars_of_signed {cs digits : List Char} {negative : Bool}
    (behind : Signed cs negative digits) (some : digits ≠ []) :
    readChars cs = readDigits negative 0 digits := by
  cases behind with
  | minus =>
    obtain ⟨c, rest, rfl⟩ := List.exists_cons_of_ne_nil some
    rfl
  | plus =>
    obtain ⟨c, rest, rfl⟩ := List.exists_cons_of_ne_nil some
    rfl
  | plain noMinus noPlus =>
    rw [readChars]
    · intro _ _ same
      exact absurd same noPlus
    · intro _ _ same
      exact absurd same noMinus

theorem readChars_of_lone {cs : List Char} {negative : Bool} (behind : Signed cs negative []) :
    readChars cs = .error .invalidDigit := by
  cases behind with
  | minus => rfl
  | plus => rfl

/-- Reading gives the number of a literal or what is wrong first. -/
theorem readChars_cases (cs : List Char) :
    (∃ i, Literal cs i ∧ least ≤ i ∧ i ≤ greatest ∧ readChars cs = .ok i) ∨
      ∃ fault, Misspelt cs fault ∧ readChars cs = .error fault := by
  rcases signed_or_nil cs with rfl | ⟨negative, digits, behind⟩
  · exact .inr ⟨_, .empty, rfl⟩
  by_cases lone : digits = []
  · subst lone
    exact .inr ⟨_, .loneSign behind, readChars_of_lone behind⟩
  rcases within_or_stops negative digits with within | ⟨fault, stops⟩
  · refine .inl ⟨_, .mk behind lone within.decimal, within.low, within.high, ?_⟩
    rw [readChars_of_signed behind lone, readDigits_of_within within]
  · refine .inr ⟨fault, .stops behind stops, ?_⟩
    rw [readChars_of_signed behind lone, readDigits_of_stops stops]

theorem readChars_of_literal {cs : List Char} {i : Int} (literal : Literal cs i)
    (low : least ≤ i) (high : i ≤ greatest) : readChars cs = .ok i := by
  obtain ⟨behind, some, decimal⟩ := literal
  rw [readChars_of_signed behind some, readDigits_of_within ⟨decimal, low, high⟩]

theorem readChars_of_misspelt {cs : List Char} {fault : IntegerFault}
    (misspelt : Misspelt cs fault) : readChars cs = .error fault := by
  cases misspelt with
  | empty => rfl
  | loneSign behind => exact readChars_of_lone behind
  | stops behind stops => rw [readChars_of_signed behind stops.ne_nil, readDigits_of_stops stops]

theorem readChars_eq_ok_iff {cs : List Char} {i : Int} :
    readChars cs = .ok i ↔ Literal cs i ∧ least ≤ i ∧ i ≤ greatest := by
  constructor
  · intro read
    rcases readChars_cases cs with ⟨j, literal, low, high, isRead⟩ | ⟨fault, _, failed⟩
    · rw [read] at isRead
      cases isRead
      exact ⟨literal, low, high⟩
    · rw [read] at failed
      cases failed
  · rintro ⟨literal, low, high⟩
    exact readChars_of_literal literal low high

theorem readChars_eq_error_iff {cs : List Char} {fault : IntegerFault} :
    readChars cs = .error fault ↔ Misspelt cs fault := by
  constructor
  · intro read
    rcases readChars_cases cs with ⟨i, _, _, _, isRead⟩ | ⟨other, misspelt, failed⟩
    · rw [read] at isRead
      cases isRead
    · rw [read] at failed
      cases failed
      exact misspelt
  · exact readChars_of_misspelt

/-- **A text is read exactly if it is a literal whose number has 64 bits.** -/
theorem read_eq_ok_iff {s : String} {value : Int64} :
    read s = .ok value ↔ Literal s.toList value.toInt := by
  constructor
  · intro isRead
    cases chars : readChars s.toList with
    | error fault =>
      rw [read, chars] at isRead
      cases isRead
    | ok i =>
      rw [read, chars] at isRead
      cases isRead
      obtain ⟨literal, low, high⟩ := readChars_eq_ok_iff.1 chars
      have same : (Int64.ofInt i).toInt = i :=
        Int64.toInt_ofInt_of_le low (Int.lt_of_le_sub_one high)
      rw [same]
      exact literal
  · intro literal
    have chars := readChars_of_literal literal (least_le_toInt value) (toInt_le_greatest value)
    rw [read, chars]
    exact congrArg Except.ok (Int64.ofInt_toInt value)

/-- **Else the fault is what is wrong first.** -/
theorem read_eq_error_iff {s : String} {fault : IntegerFault} :
    read s = .error fault ↔ Misspelt s.toList fault := by
  rw [← readChars_eq_error_iff, read]
  cases readChars s.toList with
  | ok i => exact ⟨nofun, nofun⟩
  | error other => simp only [Except.map, Except.error.injEq]

/-- Digits that write a number outside the range leave it at one of them. -/
theorem stops_of_decimal {negative : Bool} {digits : List Char}
    (decimal : ∀ c ∈ digits, c.isDigit = true) (outside : ¬ Within negative digits) :
    Stops negative digits (if negative then .tooSmall else .tooLarge) := by
  rcases within_or_stops negative digits with within | ⟨fault, stops⟩
  · exact absurd within outside
  cases stops with
  | @invalidDigit before c after parts within none =>
    have digit := decimal c (parts ▸ List.mem_append_right _ List.mem_cons_self)
    rw [none] at digit
    cases digit
  | tooLarge parts within digit beyond =>
    obtain rfl := negative_eq_false beyond
    exact .tooLarge parts within digit beyond
  | tooSmall parts within digit under =>
    obtain rfl := negative_eq_true under
    exact .tooSmall parts within digit under

/-- A literal above the range is too large, of whatever length it is. -/
theorem Literal.tooLarge {cs : List Char} {i : Int} (literal : Literal cs i)
    (beyond : greatest < i) : Misspelt cs .tooLarge := by
  obtain ⟨behind, some, decimal⟩ := literal
  have stops := stops_of_decimal decimal fun within => absurd within.high (Int.not_le.2 beyond)
  rw [negative_eq_false beyond] at behind stops
  exact .stops behind stops

/-- A literal below the range is too small. -/
theorem Literal.tooSmall {cs : List Char} {i : Int} (literal : Literal cs i) (under : i < least) :
    Misspelt cs .tooSmall := by
  obtain ⟨behind, some, decimal⟩ := literal
  have stops := stops_of_decimal decimal fun within => absurd within.low (Int.not_le.2 under)
  rw [negative_eq_true under] at behind stops
  exact .stops behind stops

/-! ## The text of an integer -/

theorem magnitude_eq_foldl (digits : List Char) :
    magnitude digits = digits.foldl (fun n c => n * 10 + (c.toNat - 48)) 0 := by
  induction digits using List.reverseRecOn with
  | nil => rfl
  | append_singleton digits c ih =>
    rw [magnitude_append_singleton, List.foldl_append, ih]
    rfl

/-- **The text of an integer is a literal** that writes it. -/
theorem literal_text (i : Int) : Literal (text i).toList i := by
  have decimal := toDigits_decimal i.natAbs
  have written : magnitude (Nat.toDigits 10 i.natAbs) = i.natAbs := by
    rw [magnitude_eq_foldl, foldl_toDigits]
  rw [toList_text]
  by_cases negative : i < 0
  · have number : signed true (Nat.toDigits 10 i.natAbs) = i := by
      rw [signed, if_pos rfl, written]
      omega
    rw [if_pos negative, List.singleton_append]
    have literal := Literal.mk .minus decimal.some decimal.digits
    rwa [number] at literal
  · have number : signed false (Nat.toDigits 10 i.natAbs) = i := by
      rw [signed, if_neg Bool.false_ne_true, written]
      omega
    rw [if_neg negative, List.nil_append]
    obtain ⟨first, others, digits⟩ := List.exists_cons_of_ne_nil decimal.some
    have digit : first.isDigit = true := decimal.digits first (digits ▸ List.mem_cons_self)
    have behind : Signed (Nat.toDigits 10 i.natAbs) false (Nat.toDigits 10 i.natAbs) := by
      rw [digits]
      refine .plain ?_ ?_
      · rintro rfl
        cases digit
      · rintro rfl
        cases digit
    have literal := Literal.mk behind decimal.some decimal.digits
    rwa [number] at literal

end ShaderChain.Integer
