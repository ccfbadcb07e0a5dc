import ShaderChain.Toml.Quoting

/-!
# Strings and keys read back

A string that is written in a style that fits it reads back, whatever comes
after its closing quotes as long as that is not another quote
(`string?_writeIn`). Every value and every key that is written is in a style
that fits it (`valueStyle_fits`, `keyStyle_fits`), so every text is a value that
reads back (`string?_quoteValue`) and a key that reads back
(`simpleKey?_quoteKey`).

With escapes the characters are taken one by one: what stands for a character
(`Stands`) is read as this character before anything that follows it. Over
several lines this fails for quotes, since three of them end the string. There
the invariant is that at most two quotes follow one another in what is left to
read, those already taken counted in (`BeginsShort`).
-/

set_option autoImplicit false

namespace ShaderChain.Toml

/-! ## Escapes -/

theorem hexValue?_hexDigitUpper : ∀ d < 16, Text.hexValue? (Text.hexDigitUpper d) = some d := by
  decide

/-- After its backslash, an escape reads back as its character and does not continue a line. -/
structure Escapes (tail : List Char) (c : Char) : Prop where
  read : ∀ more, escape? (tail ++ more) = some (c, more)
  sameLine : ∀ more, lineContinuation? (tail ++ more) = none

theorem Escapes.of_number {c : Char} (small : c.toNat < 128) :
    Escapes ('u' :: '0' :: '0' :: [Text.hexDigitUpper (c.toNat / 16),
      Text.hexDigitUpper (c.toNat % 16)]) c where
  read more := by
    have high := hexValue?_hexDigitUpper (c.toNat / 16) (by omega)
    have low := hexValue?_hexDigitUpper (c.toNat % 16) (by omega)
    have sum : c.toNat / 16 * 16 + c.toNat % 16 = c.toNat := by omega
    have zero : Text.hexValue? '0' = some 0 := rfl
    have number : Text.hexNumberFrom? 0 ['0', '0', Text.hexDigitUpper (c.toNat / 16),
        Text.hexDigitUpper (c.toNat % 16)] = some c.toNat := by
      simp [Text.hexNumberFrom?, zero, high, low, sum]
    have scalar : scalar? c.toNat = some c := by
      rw [scalar?, if_pos (by simp; omega), Char.ofNat_toNat]
    change numbered? 4 _ = _
    simp [numbered?, number, scalar]
  sameLine _ := rfl

theorem Escapes.quote : Escapes ['"'] '"' := ⟨fun _ => rfl, fun _ => rfl⟩

/-- A character other than a double quote stands as it is, as a line break of a string over
several lines, or as an escape. -/
theorem escapeChar_cases (severalLines : Bool) (c : Char) :
    (escapeChar severalLines c = [c] ∧ isPlain c = true ∧ c ≠ '\\') ∨
      (escapeChar severalLines c = ['\n'] ∧ c = '\n' ∧ severalLines = true) ∨
        ∃ tail, escapeChar severalLines c = '\\' :: tail ∧ Escapes tail c := by
  unfold escapeChar
  split
  case isTrue same => exact .inr (.inr ⟨_, rfl, same ▸ ⟨fun _ => rfl, fun _ => rfl⟩⟩)
  split
  case isTrue same => exact .inr (.inr ⟨_, rfl, same ▸ ⟨fun _ => rfl, fun _ => rfl⟩⟩)
  split
  case isTrue same =>
    cases severalLines with
    | true => exact .inr (.inl ⟨rfl, same, rfl⟩)
    | false => exact .inr (.inr ⟨_, rfl, same ▸ ⟨fun _ => rfl, fun _ => rfl⟩⟩)
  split
  case isTrue same => exact .inr (.inr ⟨_, rfl, same ▸ ⟨fun _ => rfl, fun _ => rfl⟩⟩)
  split
  case isTrue same => exact .inr (.inr ⟨_, rfl, same ▸ ⟨fun _ => rfl, fun _ => rfl⟩⟩)
  split
  case isTrue same =>
    subst same
    exact .inr (.inr ⟨_, rfl, ⟨fun _ => rfl, fun _ => rfl⟩⟩)
  split
  case isTrue control =>
    simp only [Bool.or_eq_true, decide_eq_true_eq] at control
    exact .inr (.inr ⟨_, rfl, .of_number (by omega)⟩)
  case isFalse noBackslash ordinary =>
    simp only [Bool.or_eq_true, decide_eq_true_eq] at ordinary
    refine .inl ⟨rfl, ?_, noBackslash⟩
    simp only [isPlain, Bool.or_eq_true, Bool.and_eq_true, decide_eq_true_eq, bne_iff_ne]
    omega

/-- Where `body` reads a string, the characters `written` stand for the character `c`. -/
structure Stands (body : Nat → Reader (List Char)) (written : List Char) (c : Char) : Prop where
  nonempty : written ≠ []
  read : ∀ fuel more, body (fuel + 1) (written ++ more) =
    (body fuel more).map fun found => (c :: found.1, found.2)

namespace Stands

variable {body : Nat → Reader (List Char)} {written behind more cs rest : List Char} {c : Char}
  {fuel : Nat}

theorem fuel_pred (stands : Stands body written c) (enough : (written ++ behind).length < fuel) :
    ∃ less, fuel = less + 1 ∧ behind.length < less := by
  have some := List.length_pos_iff.2 stands.nonempty
  rw [List.length_append] at enough
  exact ⟨fuel - 1, by omega, by omega⟩

theorem read_append (stands : Stands body written c)
    (next : body fuel (behind ++ more) = some (cs, rest)) :
    body (fuel + 1) (written ++ behind ++ more) = some (c :: cs, rest) := by
  rw [List.append_assoc, stands.read, next]
  rfl

end Stands

/-- A character that stands as it is begins no line break. -/
theorem newline?_of_plain {c : Char} (plain : isPlain c = true) (rest : List Char) :
    newline? (c :: rest) = none := by
  rw [newline?]
  · rintro more ⟨rfl, -⟩
    exact absurd plain (by decide)
  · rintro more ⟨rfl, -⟩
    exact absurd plain (by decide)

/-! ## Strings of one line -/

theorem Escapes.standsInLine {tail : List Char} {c : Char} (escapes : Escapes tail c) :
    Stands basicBody? ('\\' :: tail) c where
  nonempty := List.cons_ne_nil _ _
  read fuel more := by rw [List.cons_append, basicBody?, escapes.read]

/-- What is written for a character in a string of one line stands for it. -/
theorem standsInLine (c : Char) :
    Stands basicBody? (if c = '"' then ['\\', '"'] else escapeChar false c) c := by
  split
  case isTrue same => exact same ▸ Escapes.quote.standsInLine
  case isFalse noQuote =>
    rcases escapeChar_cases false c with ⟨same, plain, noBackslash⟩ | broken | escaped
    · rw [same]
      refine ⟨List.cons_ne_nil _ _, fun fuel more => ?_⟩
      rw [List.singleton_append, basicBody?, if_pos plain]
      · exact noQuote
      · exact noBackslash
    · exact nomatch broken.2.2
    · obtain ⟨tail, same, escapes⟩ := escaped
      exact same ▸ escapes.standsInLine

/-- A string of one line with escapes reads back. -/
theorem basicBody?_escapeLine (cs rest : List Char) {fuel : Nat}
    (enough : (escapeLine cs).length < fuel) :
    basicBody? fuel (escapeLine cs ++ '"' :: rest) = some (cs, rest) := by
  induction cs generalizing fuel with
  | nil =>
    obtain ⟨fuel, rfl⟩ := Nat.exists_eq_add_of_lt enough
    rfl
  | cons c cs ih =>
    rw [escapeLine, List.flatMap_cons] at enough ⊢
    obtain ⟨fuel, rfl, less⟩ := (standsInLine c).fuel_pred enough
    exact (standsInLine c).read_append (ih less)

/-- A string of one line without escapes reads back. -/
theorem literalBody?_append {cs : List Char} (plain : ∀ c ∈ cs, isPlain c = true)
    (noQuote : '\'' ∉ cs) (rest : List Char) :
    literalBody? (cs ++ '\'' :: rest) = some (cs, rest) := by
  induction cs with
  | nil => rfl
  | cons c cs ih =>
    obtain ⟨first, others⟩ := List.forall_mem_cons.1 plain
    obtain ⟨distinct, absent⟩ := not_or.1 (noQuote ∘ List.mem_cons.2)
    rw [List.cons_append, literalBody?, if_pos first, ih others absent]
    · rfl
    · exact fun same => distinct same.symm

/-! ## The end of a string over several lines -/

theorem runOf_replicate (mark : Char) {count : Nat} {rest : List Char} (atMost : count ≤ 5)
    (apart : rest.head? ≠ some mark) : runOf mark (List.replicate count mark ++ rest) = count := by
  have stops : (rest.take (5 - count)).takeWhile (· == mark) = [] := by
    cases rest with
    | nil => simp
    | cons c rest =>
      have other : c ≠ mark := fun same => apart (congrArg some same)
      cases 5 - count with
      | zero => rfl
      | succ n => simp [other]
  rw [runOf, List.take_append, List.length_replicate, List.take_of_length_le (by simpa using atMost),
    List.takeWhile_append_of_pos (by simp), stops]
  simp

/-- Up to two quotes before the closing ones belong to the string. -/
theorem closing?_at_end {mark : Char} {count : Nat} {rest : List Char} (short : count ≤ 2)
    (apart : rest.head? ≠ some mark) :
    closing? mark (List.replicate count mark ++ (List.replicate 3 mark ++ rest)) =
      some (List.replicate count mark, rest) := by
  rw [closing?, ← List.append_assoc, List.replicate_append_replicate,
    runOf_replicate mark (by omega) apart]
  simp

/-- Up to two quotes with something else behind them close nothing. -/
theorem closing?_inside {mark : Char} {count : Nat} {rest : List Char} (short : count ≤ 2)
    (apart : rest.head? ≠ some mark) : closing? mark (List.replicate count mark ++ rest) = none := by
  rw [closing?, runOf_replicate mark (by omega) apart]
  exact if_neg (by omega)

/-- The written characters begin with at most two quotes, `run` others counted in, and stand for
nothing but these quotes if they are nothing else. -/
def BeginsShort (mark : Char) (run : Nat) (written own : List Char) : Prop :=
  ∃ count later, written = List.replicate count mark ++ later ∧ run + count ≤ 2 ∧
    later.head? ≠ some mark ∧ (later = [] → own = List.replicate count mark)

namespace BeginsShort

variable {mark : Char} {run : Nat} {written own rest : List Char}

theorem nil (atMost : run ≤ 2) : BeginsShort mark run [] [] :=
  ⟨0, [], rfl, atMost, by simp, fun _ => rfl⟩

theorem cons (short : BeginsShort mark (run + 1) written own) :
    BeginsShort mark run (mark :: written) (mark :: own) := by
  obtain ⟨count, later, rfl, atMost, apart, same⟩ := short
  refine ⟨count + 1, later, rfl, by omega, apart, fun none => ?_⟩
  rw [same none]
  rfl

theorem of_other (atMost : run ≤ 2) {first : Char} (other : first ≠ mark) :
    BeginsShort mark run (first :: written) own :=
  ⟨0, first :: written, rfl, atMost, by simpa using other, nofun⟩

/-- Either the string ends with these quotes, or it goes on. -/
theorem closing? (short : BeginsShort mark run written own) (apart : rest.head? ≠ some mark) :
    Toml.closing? mark (written ++ (List.replicate 3 mark ++ rest)) = some (own, rest) ∨
      Toml.closing? mark (written ++ (List.replicate 3 mark ++ rest)) = none := by
  obtain ⟨count, later, rfl, atMost, others, same⟩ := short
  rw [List.append_assoc]
  cases later with
  | nil =>
    rw [same rfl]
    exact .inl (closing?_at_end (by omega) apart)
  | cons c later => exact .inr (closing?_inside (by omega) (by simpa using others))

end BeginsShort

/-! ## Strings over several lines -/

theorem Escapes.standsInLines {tail : List Char} {c : Char} (escapes : Escapes tail c) :
    Stands basicLines? ('\\' :: tail) c where
  nonempty := List.cons_ne_nil _ _
  read fuel more := by rw [List.cons_append, basicLines?, escapes.sameLine, escapes.read]

/-- What is written for a character in a string over several lines stands for it. -/
theorem standsInLines {c : Char} (noQuote : c ≠ '"') : Stands basicLines? (escapeChar true c) c := by
  rcases escapeChar_cases true c with
    ⟨same, plain, noBackslash⟩ | ⟨same, broken, -⟩ | ⟨tail, same, escapes⟩
  · rw [same]
    refine ⟨List.cons_ne_nil _ _, fun fuel more => ?_⟩
    rw [List.singleton_append, basicLines?, newline?_of_plain plain, if_pos plain]
    · exact noQuote
    · exact noBackslash
  · rw [same, broken]
    exact ⟨List.cons_ne_nil _ _, fun _ _ => rfl⟩
  · exact same ▸ escapes.standsInLines

/-- What stands for a character other than a double quote begins with no double quote. -/
theorem escapeChar_head (severalLines : Bool) {c : Char} (noQuote : c ≠ '"') :
    ∃ first others, escapeChar severalLines c = first :: others ∧ first ≠ '"' := by
  rcases escapeChar_cases severalLines c with ⟨same, -⟩ | ⟨same, -⟩ | ⟨tail, same, -⟩
  · exact ⟨c, [], same, noQuote⟩
  · exact ⟨'\n', [], same, by decide⟩
  · exact ⟨'\\', tail, same, by decide⟩

theorem beginsShort_escapeLines {run : Nat} (atMost : run ≤ 2) (cs : List Char) :
    BeginsShort '"' run (escapeLines run cs) cs := by
  induction cs generalizing run with
  | nil => exact .nil atMost
  | cons c cs ih =>
    rw [escapeLines]
    split
    case isTrue quote =>
      subst quote
      split
      · exact .of_other atMost (by decide)
      · exact .cons (ih (by omega))
    case isFalse noQuote =>
      obtain ⟨first, others, front, other⟩ := escapeChar_head true noQuote
      rw [front]
      exact .of_other atMost other

theorem beginsShort_of_hasTriple {mark : Char} {run : Nat} (atMost : run ≤ 2) {cs : List Char}
    (noTriple : hasTriple mark run cs = false) : BeginsShort mark run cs cs := by
  induction cs generalizing run with
  | nil => exact .nil atMost
  | cons c cs ih =>
    rw [hasTriple] at noTriple
    split at noTriple
    case isTrue same =>
      simp only [Bool.or_eq_false_iff, decide_eq_false_iff_not] at noTriple
      subst same
      exact .cons (ih (by omega) noTriple.2)
    case isFalse other => exact .of_other atMost other

theorem basicLines?_closed {more : List Char} {found : List Char × List Char}
    (closes : closing? '"' ('"' :: more) = some found) (fuel : Nat) :
    basicLines? (fuel + 1) ('"' :: more) = some found := by
  rw [basicLines?, closes]

theorem basicLines?_quote {more : List Char} (goesOn : closing? '"' ('"' :: more) = none)
    (fuel : Nat) :
    basicLines? (fuel + 1) ('"' :: more) =
      (basicLines? fuel more).map fun found => ('"' :: found.1, found.2) := by
  rw [basicLines?, goesOn]

/-- A string over several lines with escapes reads back. -/
theorem basicLines?_escapeLines (cs : List Char) {rest : List Char} {run fuel : Nat}
    (atMost : run ≤ 2) (apart : rest.head? ≠ some '"')
    (enough : (escapeLines run cs).length < fuel) :
    basicLines? fuel (escapeLines run cs ++ (List.replicate 3 '"' ++ rest)) = some (cs, rest) := by
  induction cs generalizing run fuel with
  | nil =>
    obtain ⟨fuel, rfl⟩ : ∃ less, fuel = less + 1 := ⟨fuel - 1, by omega⟩
    exact basicLines?_closed (closing?_at_end (Nat.zero_le 2) apart) fuel
  | cons c cs ih =>
    have short := beginsShort_escapeLines atMost (c :: cs)
    by_cases quote : c = '"'
    · subst quote
      by_cases last : run = 2
      · rw [escapeLines, if_pos rfl, if_pos last] at enough ⊢
        obtain ⟨fuel, rfl, less⟩ := Escapes.quote.standsInLines.fuel_pred enough
        exact Escapes.quote.standsInLines.read_append (ih (Nat.zero_le 2) less)
      · rw [escapeLines, if_pos rfl, if_neg last] at enough short ⊢
        obtain ⟨fuel, rfl⟩ : ∃ less, fuel = less + 1 := ⟨fuel - 1, by omega⟩
        rcases short.closing? apart with closes | goesOn
        · exact basicLines?_closed closes fuel
        · refine (basicLines?_quote goesOn fuel).trans ?_
          exact congrArg _ (ih (by omega) (by simpa using enough))
    · rw [escapeLines, if_neg quote] at enough ⊢
      obtain ⟨fuel, rfl, less⟩ := (standsInLines quote).fuel_pred enough
      exact (standsInLines quote).read_append (ih (Nat.zero_le 2) less)

/-- A string over several lines without escapes reads back. -/
theorem literalLines?_append {cs rest : List Char} {run fuel : Nat} (atMost : run ≤ 2)
    (plain : ∀ c ∈ cs, isPlain c = true ∨ c = '\n') (noTriple : hasTriple '\'' run cs = false)
    (apart : rest.head? ≠ some '\'') (enough : cs.length < fuel) :
    literalLines? fuel (cs ++ (List.replicate 3 '\'' ++ rest)) = some (cs, rest) := by
  induction cs generalizing run fuel with
  | nil =>
    obtain ⟨fuel, rfl⟩ : ∃ less, fuel = less + 1 := ⟨fuel - 1, by omega⟩
    have closes : closing? '\'' ('\'' :: '\'' :: '\'' :: rest) = some ([], rest) :=
      closing?_at_end (Nat.zero_le 2) apart
    change literalLines? (fuel + 1) ('\'' :: '\'' :: '\'' :: rest) = _
    rw [literalLines?, closes]
  | cons c cs ih =>
    obtain ⟨fuel, rfl⟩ : ∃ less, fuel = less + 1 := ⟨fuel - 1, by omega⟩
    obtain ⟨first, others⟩ := List.forall_mem_cons.1 plain
    rw [List.length_cons] at enough
    have short := beginsShort_of_hasTriple atMost noTriple
    rw [hasTriple] at noTriple
    split at noTriple
    case isTrue same =>
      subst same
      simp only [Bool.or_eq_false_iff, decide_eq_false_iff_not] at noTriple
      rw [List.cons_append, literalLines?]
      rcases short.closing? apart with closes | goesOn
      · rw [List.cons_append] at closes
        rw [closes]
      · rw [List.cons_append] at goesOn
        rw [goesOn, ih (by omega) others noTriple.2 (by omega)]
        rfl
    case isFalse other =>
      have next := ih (Nat.zero_le 2) others noTriple (show cs.length < fuel by omega)
      rcases first with plain | broken
      · rw [List.cons_append, literalLines?, newline?_of_plain plain, if_pos plain, next]
        · rfl
        · exact other
      · subst broken
        change (literalLines? fuel (cs ++ (List.replicate 3 '\'' ++ rest))).map _ = _
        rw [next]
        rfl

/-! ## Strings in a style -/

/-- Whether a style without escapes can hold the characters as they are. -/
def Style.Fits : Style → List Char → Prop
  | .literal, cs => (∀ c ∈ cs, isPlain c = true) ∧ '\'' ∉ cs
  | .literalLines, cs =>
    (∀ c ∈ cs, isPlain c = true ∨ c = '\n') ∧ hasTriple '\'' 0 cs = false
  | .basic, _ => True
  | .basicLines, _ => True

/-- A string of one line does not look like the beginning of one over several lines. -/
theorem escapeLine_append_ne {cs rest : List Char} (apart : rest.head? ≠ some '"')
    (more : List Char) : escapeLine cs ++ '"' :: rest ≠ '"' :: '"' :: more := by
  cases cs with
  | nil =>
    intro same
    rw [(List.cons.inj same).2] at apart
    exact apart rfl
  | cons c cs =>
    rw [escapeLine, List.flatMap_cons]
    split
    case isTrue => exact fun same => nomatch (List.cons.inj same).1
    case isFalse noQuote =>
      obtain ⟨first, others, front, other⟩ := escapeChar_head false noQuote
      rw [front]
      exact fun same => other (List.cons.inj same).1

theorem literal_append_ne {cs rest : List Char} (noQuote : '\'' ∉ cs)
    (apart : rest.head? ≠ some '\'') (more : List Char) :
    cs ++ '\'' :: rest ≠ '\'' :: '\'' :: more := by
  cases cs with
  | nil =>
    intro same
    rw [(List.cons.inj same).2] at apart
    exact apart rfl
  | cons c cs =>
    intro same
    exact noQuote ((List.cons.inj same).1 ▸ List.mem_cons_self)

/-- The line break after the opening quotes is taken away, and no other. -/
theorem skipNewline_leadingBreak {cs text : List Char}
    (noBreak : '\n' ∉ cs → newline? text = none) :
    skipNewline (leadingBreak cs ++ text) = text := by
  unfold leadingBreak
  split
  case isTrue => rfl
  case isFalse broken =>
    rw [List.nil_append, skipNewline, noBreak (by simpa using broken)]
    rfl

theorem newline?_escapeLines {cs : List Char} (noBreak : '\n' ∉ cs) (rest : List Char) :
    newline? (escapeLines 0 cs ++ (List.replicate 3 '"' ++ rest)) = none := by
  cases cs with
  | nil => rfl
  | cons c cs =>
    rw [escapeLines]
    split
    case isTrue => rfl
    case isFalse noQuote =>
      rcases escapeChar_cases true c with ⟨same, plain, -⟩ | ⟨-, broken, -⟩ | ⟨tail, same, -⟩
      · rw [same]
        exact newline?_of_plain plain _
      · exact absurd (broken ▸ List.mem_cons_self) noBreak
      · rw [same]
        rfl

theorem newline?_literalLines {cs : List Char} (plain : ∀ c ∈ cs, isPlain c = true ∨ c = '\n')
    (noBreak : '\n' ∉ cs) (rest : List Char) :
    newline? (cs ++ (List.replicate 3 '\'' ++ rest)) = none := by
  cases cs with
  | nil => rfl
  | cons c cs =>
    rcases plain c List.mem_cons_self with first | broken
    · exact newline?_of_plain first _
    · exact absurd (broken ▸ List.mem_cons_self) noBreak

/-- **A string reads back in every style that fits it.** -/
theorem string?_writeIn {style : Style} {cs rest : List Char} (fits : style.Fits cs)
    (noDouble : rest.head? ≠ some '"') (noSingle : rest.head? ≠ some '\'') :
    string? (writeIn style cs ++ rest) = some (String.ofList cs, rest) := by
  cases style with
  | basic =>
    rw [writeIn, List.cons_append, List.append_assoc, List.singleton_append, string?]
    · rw [basicBody?_escapeLine _ _ (by rw [List.length_append]; omega)]
      rfl
    · exact escapeLine_append_ne noDouble
  | literal =>
    rw [writeIn, List.cons_append, List.append_assoc, List.singleton_append, string?]
    · rw [literalBody?_append fits.1 fits.2]
      rfl
    · exact literal_append_ne fits.2 noSingle
  | basicLines =>
    have text : writeIn .basicLines cs ++ rest = '"' :: '"' :: '"' ::
        (leadingBreak cs ++ (escapeLines 0 cs ++ (List.replicate 3 '"' ++ rest))) := by
      simp [writeIn, List.replicate]
    rw [text, string?, skipNewline_leadingBreak fun noBreak => newline?_escapeLines noBreak rest,
      basicLines?_escapeLines cs (Nat.zero_le 2) noDouble (by simp; omega)]
    rfl
  | literalLines =>
    have text : writeIn .literalLines cs ++ rest = '\'' :: '\'' :: '\'' ::
        (leadingBreak cs ++ (cs ++ (List.replicate 3 '\'' ++ rest))) := by
      simp [writeIn, List.replicate]
    rw [text, string?,
      skipNewline_leadingBreak fun noBreak => newline?_literalLines fits.1 noBreak rest,
      literalLines?_append (Nat.zero_le 2) fits.1 fits.2 noSingle (by simp; omega)]
    rfl

/-! ## Values and keys -/

theorem isPlain_or_break {c : Char} (noControl : isControl c = false) :
    isPlain c = true ∨ c = '\n' := by
  by_cases broken : c = '\n'
  · exact .inr broken
  · by_cases tab : c = '\t'
    · exact .inl (by simp [isPlain, tab])
    · simp only [isControl, Bool.or_eq_false_iff, Bool.and_eq_false_iff, decide_eq_false_iff_not,
        bne_eq_false_iff_eq, tab, broken, or_false, beq_eq_false_iff_ne] at noControl
      refine .inl ?_
      simp only [isPlain, Bool.or_eq_true, Bool.and_eq_true, decide_eq_true_eq, bne_iff_ne]
      omega

theorem valueStyle_fits (cs : List Char) : (valueStyle cs).Fits cs := by
  have plain (noControl : cs.any isControl = false) :
      ∀ c ∈ cs, isPlain c = true ∨ c = '\n' := by
    intro c member
    exact isPlain_or_break (by simpa using List.any_eq_false.1 noControl c member)
  unfold valueStyle
  dsimp only
  split
  · trivial
  split
  case isTrue fits =>
    simp only [Bool.and_eq_true, Bool.not_eq_true'] at fits
    obtain ⟨⟨noControl, noBreak⟩, noQuote⟩ := fits
    refine ⟨fun c member => (plain noControl c member).resolve_right fun broken => ?_, ?_⟩
    · subst broken
      simp [member] at noBreak
    · simpa using noQuote
  split
  · trivial
  split
  case isTrue fits =>
    simp only [Bool.and_eq_true, Bool.not_eq_true'] at fits
    exact ⟨plain fits.1, fits.2⟩
  split
  · trivial
  · trivial

/-- A key that is not bare is written on one line, in a style that fits it. -/
theorem keyStyle_fits (cs : List Char) :
    keyStyle cs = .basic ∨ keyStyle cs = .literal ∧ Style.Fits .literal cs := by
  unfold keyStyle
  dsimp only
  split
  · exact .inl rfl
  split
  case isTrue fits =>
    simp only [Bool.and_eq_true, Bool.not_eq_true'] at fits
    refine .inr ⟨rfl, fun c member => ?_, by simpa using fits.2⟩
    have noControl := List.any_eq_false.1 fits.1 c member
    simp only [Bool.or_eq_true, beq_iff_eq, not_or, Bool.not_eq_true] at noControl
    exact (isPlain_or_break noControl.1).resolve_right noControl.2
  · exact .inl rfl

/-- **Every text is a value that reads back.** -/
theorem string?_quoteValue (s : String) {rest : List Char} (noDouble : rest.head? ≠ some '"')
    (noSingle : rest.head? ≠ some '\'') :
    string? ((quoteValue s).toList ++ rest) = some (s, rest) := by
  rw [quoteValue, String.toList_ofList, string?_writeIn (valueStyle_fits _) noDouble noSingle,
    String.ofList_toList]

/-- A value begins with a quote. -/
theorem quoteValue_head (s : String) :
    ∃ first others, (quoteValue s).toList = first :: others ∧ (first = '"' ∨ first = '\'') := by
  rw [quoteValue, String.toList_ofList]
  cases valueStyle s.toList with
  | basic => exact ⟨_, _, rfl, .inl rfl⟩
  | literal => exact ⟨_, _, rfl, .inr rfl⟩
  | basicLines => exact ⟨_, _, rfl, .inl rfl⟩
  | literalLines => exact ⟨_, _, rfl, .inr rfl⟩

/-- A character that a key can begin with: a quote or a character of a bare key. -/
def BeginsKey (c : Char) : Prop := isBareKey c = true ∨ c = '"' ∨ c = '\''

instance : DecidablePred BeginsKey := fun c =>
  inferInstanceAs (Decidable (isBareKey c = true ∨ c = '"' ∨ c = '\''))

theorem BeginsKey.ne {c other : Char} (begins : BeginsKey c) (not : ¬ BeginsKey other) :
    c ≠ other :=
  fun same => not (same ▸ begins)

theorem quoteKey_head (s : String) :
    ∃ first others, (quoteKey s).toList = first :: others ∧ BeginsKey first := by
  unfold quoteKey
  split
  case isTrue bare =>
    cases chars : s.toList with
    | nil => simp [isBare, chars] at bare
    | cons first others =>
      simp only [isBare, chars, List.all_cons, Bool.and_eq_true] at bare
      exact ⟨first, others, rfl, .inl bare.2.1⟩
  case isFalse =>
    rw [String.toList_ofList]
    rcases keyStyle_fits s.toList with same | ⟨same, -⟩
    · rw [same]
      exact ⟨_, _, rfl, .inr (.inl rfl)⟩
    · rw [same]
      exact ⟨_, _, rfl, .inr (.inr rfl)⟩

/-- **Every text is a key that reads back.** -/
theorem simpleKey?_quoteKey (s : String) {rest : List Char}
    (ends : ∀ c, rest.head? = some c → isBareKey c = false) :
    simpleKey? ((quoteKey s).toList ++ rest) = some (s, rest) := by
  unfold quoteKey
  split
  case isTrue bare =>
    simp only [isBare, Bool.and_eq_true, Bool.not_eq_true', List.all_eq_true,
      List.isEmpty_eq_false_iff] at bare
    have stops : rest.takeWhile isBareKey = [] ∧ rest.dropWhile isBareKey = rest := by
      cases rest with
      | nil => exact ⟨rfl, rfl⟩
      | cons c rest => simp [ends c rfl]
    have noQuote : ∀ mark, isBareKey mark = false → ∀ more, s.toList ++ rest ≠ mark :: more := by
      intro mark notBare more same
      obtain ⟨first, others, chars⟩ := List.exists_cons_of_ne_nil bare.1
      rw [chars, List.cons_append] at same
      have isFirst := bare.2 first (chars ▸ List.mem_cons_self)
      rw [(List.cons.inj same).1, notBare] at isFirst
      cases isFirst
    rw [simpleKey?, List.takeWhile_append_of_pos bare.2, List.dropWhile_append_of_pos bare.2,
      stops.1, stops.2, List.append_nil, if_neg (by simpa using bare.1), String.ofList_toList]
    · exact noQuote '"' rfl
    · exact noQuote '\'' rfl
  case isFalse =>
    rw [String.toList_ofList]
    rcases keyStyle_fits s.toList with same | ⟨same, fits⟩
    · rw [same, writeIn, List.cons_append, List.append_assoc, List.singleton_append, simpleKey?,
        basicBody?_escapeLine _ _ (by rw [List.length_append]; omega)]
      simp
    · rw [same, writeIn, List.cons_append, List.append_assoc, List.singleton_append, simpleKey?,
        literalBody?_append fits.1 fits.2]
      simp

end ShaderChain.Toml
