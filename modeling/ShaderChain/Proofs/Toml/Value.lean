import ShaderChain.Proofs.Number.Decimal
import ShaderChain.Proofs.Toml.Statement

/-!
# Integers, truth values and lists of texts read back

The values of a line besides texts: an integer of 64 bits (`rereads_int`), a
truth value (`rereads_bool`) and a list of texts (`rereads_texts`), which stands
on one line or takes a line for each item.

An integer is read as a number because it is no date or time: those have a
punctuation mark where an integer goes on with a digit or ends
(`moment?_integer`).
-/

set_option autoImplicit false

namespace ShaderChain.Toml

open Integer (Decimal)

/-! ## Integers -/

theorem digits?_cons {c : Char} {more : List Char} (digit : c.isDigit = true)
    (noMark : ∀ after, more ≠ '_' :: after) :
    digits? Char.isDigit (c :: more) =
      match digits? Char.isDigit more with
      | some found => some (c :: found.1, found.2)
      | none => some ([c], more) := by
  rewrite [digits?, if_pos digit]
  · rfl
  · exact noMark

theorem digits?_of_no_digit {c : Char} (noDigit : ¬ c.isDigit = true) (more : List Char) :
    digits? Char.isDigit (c :: more) = none := by
  unfold digits?
  exact if_neg noDigit

/-- Digits are read up to the end of the line. -/
theorem digits?_append {digits : List Char} (some : digits ≠ [])
    (are : ∀ c ∈ digits, c.isDigit = true) (rest : List Char) :
    digits? Char.isDigit (digits ++ '\n' :: rest) = .some (digits, '\n' :: rest) := by
  induction digits with
  | nil => exact absurd rfl some
  | cons c others ih =>
    obtain ⟨digit, later⟩ := List.forall_mem_cons.1 are
    cases others with
    | nil =>
      have noMark : ∀ after, '\n' :: rest ≠ '_' :: after := fun _ => nofun
      rw [List.singleton_append, digits?_cons digit noMark, digits?_of_no_digit (by decide)]
    | cons next others =>
      have noMark : ∀ after, next :: others ++ '\n' :: rest ≠ '_' :: after := by
        intro after same
        obtain ⟨rfl, -⟩ := List.cons.inj same
        exact absurd (later _ List.mem_cons_self) (by decide)
      rw [List.cons_append, digits?_cons digit noMark, ih (List.cons_ne_nil next others) later]

/-- What is left after a fixed number of digits of an integer goes on with a digit or ends the
line. -/
theorem head_of_exactDigits? {digits : List Char} (are : ∀ c ∈ digits, c.isDigit = true)
    {rest after : List Char} {count n : Nat} {c : Char}
    (read : exactDigits? count (digits ++ '\n' :: rest) = some (n, c :: after)) :
    c.isDigit = true ∨ c = '\n' := by
  rw [exactDigits?] at read
  by_cases digitsThere : (decide (((digits ++ '\n' :: rest).take count).length = count) &&
      ((digits ++ '\n' :: rest).take count).all Char.isDigit) = true
  · rw [if_pos digitsThere] at read
    rw [Bool.and_eq_true] at digitsThere
    obtain ⟨-, all⟩ := digitsThere
    have left : (digits ++ '\n' :: rest).drop count = c :: after :=
      (Prod.mk.inj (Option.some.inj read)).2
    clear read
    induction digits generalizing count with
    | nil =>
      cases count with
      | zero => exact .inr (List.cons.inj left).1.symm
      | succ count => exact absurd (List.all_eq_true.1 all '\n' List.mem_cons_self) (by decide)
    | cons digit digits ih =>
      obtain ⟨isDigit, later⟩ := List.forall_mem_cons.1 are
      cases count with
      | zero =>
        rw [← (List.cons.inj left).1]
        exact .inl isDigit
      | succ count =>
        rw [List.cons_append, List.take_succ_cons, List.all_cons, Bool.and_eq_true] at all
        exact ih later all.2 left
  · rw [if_neg digitsThere] at read
    contradiction

theorem exactDigits?_minus (count : Nat) (rest : List Char) :
    exactDigits? (count + 1) ('-' :: rest) = none := by
  rw [exactDigits?, if_neg]
  rw [List.take_succ_cons, List.all_cons]
  simp

/-- An integer is no date and no time. -/
theorem moment?_integer {digits : List Char} (are : ∀ c ∈ digits, c.isDigit = true)
    (negative : Bool) (rest : List Char) :
    moment? ((if negative then ['-'] else []) ++ digits ++ '\n' :: rest) = none := by
  have noDate : date? ((if negative then ['-'] else []) ++ digits ++ '\n' :: rest) = none := by
    cases negative with
    | true =>
      change date? ('-' :: (digits ++ '\n' :: rest)) = none
      rw [date?, exactDigits?_minus]
    | false =>
      change date? (digits ++ '\n' :: rest) = none
      rw [date?]
      split
      case h_1 year more read =>
        exact absurd (head_of_exactDigits? are read) (by decide)
      case h_2 => rfl
  have noTime : time? ((if negative then ['-'] else []) ++ digits ++ '\n' :: rest) = none := by
    cases negative with
    | true =>
      change time? ('-' :: (digits ++ '\n' :: rest)) = none
      rw [time?, twoDigits?, exactDigits?_minus]
    | false =>
      change time? (digits ++ '\n' :: rest) = none
      rw [time?]
      split
      case h_1 hour more read =>
        rw [twoDigits?] at read
        split at read
        case h_1 n after found =>
          split at read
          · cases read
            exact absurd (head_of_exactDigits? are found) (by decide)
          · contradiction
        case h_2 => contradiction
      case h_2 => rfl
  rw [moment?, noDate, noTime]
  rfl

theorem wholeDigits?_append {digits : List Char} (decimal : Decimal digits) (rest : List Char) :
    wholeDigits? (digits ++ '\n' :: rest) = some (digits, '\n' :: rest) := by
  by_cases zero : ∃ others, digits = '0' :: others
  · obtain ⟨others, rfl⟩ := zero
    rw [decimal.zero others rfl]
    rfl
  · rw [wholeDigits?, digits?_append decimal.some decimal.digits]
    intro more same
    obtain ⟨first, others, rfl⟩ := List.exists_cons_of_ne_nil decimal.some
    obtain ⟨rfl, -⟩ := List.cons.inj same
    exact zero ⟨others, rfl⟩

/-- Digits that end the line are an integer. -/
theorem decimalNumber?_append {digits : List Char} (decimal : Decimal digits) (negative : Bool)
    (rest : List Char) :
    decimalNumber? negative (digits ++ '\n' :: rest) =
      (int64? (if negative then -(Toml.decimal digits : Int) else Toml.decimal digits)).map
        (·, '\n' :: rest) := by
  rw [decimalNumber?, wholeDigits?_append decimal]
  rfl

/-- After its sign, a number that begins with a digit and not with the mark of a base is decimal. -/
theorem number?_of_sign {cs more : List Char} {negative : Bool} {first : Char}
    (noBase : ∀ mark, mark = 'x' ∨ mark = 'o' ∨ mark = 'b' → ∀ after, cs ≠ '0' :: mark :: after)
    (signed : sign cs = (negative, first :: more)) (digit : first.isDigit = true) :
    number? cs = decimalNumber? negative (first :: more) := by
  rw [number?, signed]
  · dsimp only
    split
    case h_1 same =>
      obtain ⟨rfl, -⟩ := List.cons.inj same
      exact absurd digit (by decide)
    case h_2 same =>
      obtain ⟨rfl, -⟩ := List.cons.inj same
      exact absurd digit (by decide)
    case h_3 => rfl
  · exact noBase 'x' (.inl rfl)
  · exact noBase 'o' (.inr (.inl rfl))
  · exact noBase 'b' (.inr (.inr rfl))

/-- The text of an integer is a number. -/
theorem number?_append {digits : List Char} (decimal : Decimal digits) (negative : Bool)
    (rest : List Char) :
    number? ((if negative then ['-'] else []) ++ digits ++ '\n' :: rest) =
      (int64? (if negative then -(Toml.decimal digits : Int) else Toml.decimal digits)).map
        (·, '\n' :: rest) := by
  rw [← decimalNumber?_append decimal]
  obtain ⟨first, others, rfl⟩ := List.exists_cons_of_ne_nil decimal.some
  have digit := decimal.digits first List.mem_cons_self
  cases negative with
  | true => exact number?_of_sign (fun _ _ _ => nofun) rfl digit
  | false =>
    have noSign : sign (first :: others ++ '\n' :: rest) =
        (false, first :: others ++ '\n' :: rest) := by
      rw [sign]
      · rintro more same
        obtain ⟨rfl, -⟩ := List.cons.inj same
        exact absurd digit (by decide)
      · rintro more same
        obtain ⟨rfl, -⟩ := List.cons.inj same
        exact absurd digit (by decide)
    refine number?_of_sign ?_ noSign digit
    intro mark isMark after same
    change first :: (others ++ '\n' :: rest) = _ at same
    obtain ⟨rfl, later⟩ := List.cons.inj same
    rw [decimal.zero others rfl] at later
    obtain ⟨rfl, -⟩ := List.cons.inj later
    exact absurd isMark (by decide)

/-- **An integer of 64 bits reads back.** -/
theorem rereads_int {value : Int} (low : Integer.least ≤ value) (high : value ≤ Integer.greatest) :
    Rereads (.int value) where
  inLine _ := rfl
  noBlank rest := by
    obtain ⟨c, others, text, begins⟩ := Integer.text_head value
    have noBlank : isSpace c = false := by
      rcases begins with rfl | digit
      · rfl
      · rw [isSpace, Bool.or_eq_false_iff, beq_eq_false_iff_ne, beq_eq_false_iff_ne]
        constructor
        · rintro rfl
          exact absurd digit (by decide)
        · rintro rfl
          exact absurd digit (by decide)
    rw [inlineText, text, List.cons_append, skipSpace,
      List.dropWhile_cons_of_neg (by simp [noBlank])]
  read rest := by
    have decimal := Integer.toDigits_decimal value.natAbs
    have written : Toml.decimal (Nat.toDigits 10 value.natAbs) = value.natAbs :=
      Integer.foldl_toDigits value.natAbs
    have signed : (if decide (value < 0) = true then -(value.natAbs : Int) else value.natAbs) =
        value := by
      by_cases negative : value < 0
      · rw [if_pos (decide_eq_true negative)]
        omega
      · rw [if_neg (by simpa using negative)]
        omega
    have within := Integer.within_eq_true low high
    have text : (Integer.text value).toList =
        (if decide (value < 0) = true then ['-'] else []) ++ Nat.toDigits 10 value.natAbs := by
      rw [Integer.toList_text]
      simp
    obtain ⟨c, others, head, begins⟩ := Integer.text_head value
    have noWord {letter : Char} {more : List Char}
        (noBegin : ¬ (letter = '-' ∨ letter.isDigit = true))
        (same : (Integer.text value).toList ++ '\n' :: rest = letter :: more) : False := by
      rw [head] at same
      obtain ⟨rfl, -⟩ := List.cons.inj same
      exact noBegin begins
    have number : (moment? ((Integer.text value).toList ++ '\n' :: rest)).or
        (number? ((Integer.text value).toList ++ '\n' :: rest)) =
          some (.int value, '\n' :: rest) := by
      rw [text, moment?_integer decimal.digits, number?_append decimal, written, signed, int64?,
        if_pos within]
      rfl
    rw [inlineText]
    unfold value?
    split
    case h_1 same => exact (noWord (by decide) same).elim
    case h_2 same => exact (noWord (by decide) same).elim
    case h_3 same => exact (noWord (by decide) same).elim
    case h_4 same => exact (noWord (by decide) same).elim
    case h_5 same => exact (noWord (by decide) same).elim
    case h_6 same => exact (noWord (by decide) same).elim
    case h_7 => exact number

/-! ## Truth values -/

theorem rereads_bool (value : Bool) : Rereads (.bool value) where
  inLine _ := rfl
  noBlank _ := by
    cases value with
    | true => rfl
    | false => rfl
  read _ := by
    cases value with
    | true => rfl
    | false => rfl

/-! ## Lists of texts -/

/-- Nothing is skipped in front of a text. -/
theorem skipLines_quoteValue (s : String) (rest : List Char) (fuel : Nat) :
    skipLines fuel ((quoteValue s).toList ++ rest) = (quoteValue s).toList ++ rest := by
  obtain ⟨first, others, chars, quote⟩ := quoteValue_head s
  rw [chars, List.cons_append]
  rcases quote with rfl | rfl
  · exact BeginsLine.skipLines_eq (by decide) fuel _
  · exact BeginsLine.skipLines_eq (by decide) fuel _

/-- Where a text is due, it is the next item of a list. -/
theorem items?_quoteValue {depth fuel : Nat} {cs rest : List Char} {s : String}
    (front : skipLines cs.length cs = (quoteValue s).toList ++ rest)
    (noDouble : rest.head? ≠ some '"') (noSingle : rest.head? ≠ some '\'') :
    items? (value? depth) (fuel + 1) cs =
      match skipLines rest.length rest with
      | ',' :: more =>
        (items? (value? depth) fuel more).map fun found => (.text s :: found.1, found.2)
      | ']' :: more => some ([.text s], more)
      | _ => none := by
  have read := value?_quoteValue depth s noDouble noSingle
  obtain ⟨first, others, chars, quote⟩ := quoteValue_head s
  have noBracket : first ≠ ']' := by
    rcases quote with rfl | rfl
    · decide
    · decide
  rw [chars, List.cons_append] at front read
  rw [items?, front]
  split
  case h_1 same => exact absurd (List.cons.inj same).1 noBracket
  case h_2 =>
    rewrite [read]
    rfl

/-- The lines of a list, an item on each. -/
def itemLines (items : List String) : List Char :=
  items.flatMap fun s => ' ' :: ' ' :: ' ' :: ' ' :: ((quoteValue s).toList ++ [',', '\n'])

theorem length_le_itemLines (items : List String) : items.length ≤ (itemLines items).length := by
  induction items with
  | nil => exact Nat.zero_le _
  | cons s items ih =>
    rw [itemLines] at ih ⊢
    rw [List.flatMap_cons, List.length_append, List.length_cons, List.length_cons]
    omega

/-- Items on lines of their own are read one after the other. -/
theorem items?_itemLines (depth : Nat) (items : List String) {fuel : Nat}
    (enough : items.length < fuel) (rest : List Char) :
    items? (value? depth) fuel ('\n' :: (itemLines items ++ ']' :: rest)) =
      some (items.map .text, rest) := by
  induction items generalizing fuel with
  | nil =>
    obtain ⟨fuel, rfl⟩ : ∃ less, fuel = less + 1 := ⟨fuel - 1, by omega⟩
    rfl
  | cons s items ih =>
    rw [List.length_cons] at enough
    obtain ⟨fuel, rfl⟩ : ∃ less, fuel = less + 1 := ⟨fuel - 1, by omega⟩
    have text : itemLines (s :: items) ++ ']' :: rest =
        ' ' :: ' ' :: ' ' :: ' ' ::
          ((quoteValue s).toList ++ ',' :: '\n' :: (itemLines items ++ ']' :: rest)) := by
      simp [itemLines]
    obtain ⟨first, others, chars, quote⟩ := quoteValue_head s
    have front : skipLines ('\n' :: (itemLines (s :: items) ++ ']' :: rest)).length
        ('\n' :: (itemLines (s :: items) ++ ']' :: rest)) =
          (quoteValue s).toList ++ ',' :: '\n' :: (itemLines items ++ ']' :: rest) := by
      rw [text, chars]
      rcases quote with rfl | rfl
      · rfl
      · rfl
    rw [items?_quoteValue front (by simp) (by simp)]
    change (items? (value? depth) fuel ('\n' :: (itemLines items ++ ']' :: rest))).map _ = _
    rw [ih (by omega)]
    rfl

theorem inlineItems_texts (items : List String) :
    inlineItems (items.map .text) = items.map quoteValue := by
  induction items with
  | nil => rfl
  | cons s items ih =>
    rw [List.map_cons, inlineItems, inlineText, ih]
    rfl

theorem inlineText_texts (items : List String) :
    inlineText (.texts items) = arrayText (items.map quoteValue) := by
  rw [Document.texts, inlineText, inlineItems_texts]

theorem toList_joinedLines (items : List String) :
    (String.join ((items.map quoteValue).map fun item => "    " ++ item ++ ",\n")).toList =
      itemLines items := by
  induction items with
  | nil => rfl
  | cons s items ih =>
    rw [List.map_cons, List.map_cons, String.join_cons, String.toList_append, ih]
    simp [itemLines]

/-- How a list of texts is written: on one line up to one text, else with a line for each. -/
theorem toList_inlineText_texts (items : List String) :
    (inlineText (.texts items)).toList =
      match items with
      | [] => ['[', ']']
      | [s] => '[' :: ((quoteValue s).toList ++ [']'])
      | items => '[' :: '\n' :: (itemLines items ++ [']']) := by
  rw [inlineText_texts]
  match items with
  | [] => rfl
  | [s] =>
    rw [List.map_singleton, arrayText, String.toList_append, String.toList_append]
    rfl
  | first :: second :: items =>
    rw [List.map_cons, List.map_cons, arrayText, ← List.map_cons, ← List.map_cons,
      String.toList_append, String.toList_append, toList_joinedLines]
    · rfl
    · exact nofun
    · exact fun _ same => nomatch (List.cons.inj same).2

theorem value?_bracket {depth : Nat} {items : List Document} {body rest : List Char}
    (read : items? (value? depth) (body.length + 1) body = some (items, rest)) :
    value? (depth + 1) ('[' :: body) = some (.list items, rest) := by
  rw [value?, read]
  rfl

/-- **A list of texts reads back.** -/
theorem rereads_texts (items : List String) : Rereads (.texts items) where
  inLine key := by
    have noTables : isArrayOfTables (items.map .text) = false := by
      cases items with
      | nil => rfl
      | cons => rfl
    exact if_neg (ne_true_of_eq_false noTables)
  noBlank rest := by
    rw [toList_inlineText_texts]
    match items with
    | [] => rfl
    | [s] => rfl
    | first :: second :: items => rfl
  read rest := by
    rw [toList_inlineText_texts]
    match items with
    | [] => rfl
    | [s] =>
      rw [List.cons_append, List.append_assoc]
      apply value?_bracket
      rw [items?_quoteValue (skipLines_quoteValue s _ _) (by simp) (by simp)]
      rfl
    | first :: second :: items =>
      change value? depthLimit
        ('[' :: '\n' :: (itemLines (first :: second :: items) ++ [']'] ++ '\n' :: rest)) = _
      rw [List.append_assoc]
      apply value?_bracket
      apply items?_itemLines
      have room := length_le_itemLines (first :: second :: items)
      simp only [List.length_cons, List.length_append] at room ⊢
      omega

end ShaderChain.Toml
