import Mathlib.Data.Nat.Digits.Lemmas
import ShaderChain.Proofs.Text.Utf8
import ShaderChain.Text.Base64

/-!
# Base64 read back

Writing bytes and reading a text are inverse to each other: the text written for
bytes is read as these bytes (`decode?_encode`), and a text that is read as bytes
is the one written for them (`encode_of_decode?`).

What is written is what the standard asks for (`Standard`). The letters of the
alphabet are the digits of a number to the base 64, the bytes are digits of a
number to the base 256, and the two numbers agree but for two zero bits for each
padding character. That determines the text (`Standard.unique`).
-/

set_option autoImplicit false

namespace ShaderChain.Text.Base64

/-! ## The alphabet -/

theorem value?_digit {n : Nat} (small : n < 64) : value? (digit n) = some n := by
  have all : ∀ n < 64, value? (digit n) = some n := by decide
  exact all n small

/-- A character between two others has a code between theirs. -/
theorem toNat_between {first last c : Char} (between : (first ≤ c && c ≤ last) = true) :
    first.toNat ≤ c.toNat ∧ c.toNat ≤ last.toNat := by
  rw [Bool.and_eq_true, decide_eq_true_iff, decide_eq_true_iff] at between
  exact between

/-- A character with a value is the digit of that value. -/
theorem digit_of_value? {c : Char} {n : Nat} (found : value? c = some n) :
    n < 64 ∧ digit n = c := by
  rw [value?] at found
  split at found
  case isTrue capital =>
    obtain ⟨low, high⟩ := toNat_between capital
    change 65 ≤ c.toNat at low
    change c.toNat ≤ 90 at high
    cases found
    refine ⟨by omega, ?_⟩
    rw [digit, if_pos (by omega), Nat.add_sub_cancel' low, Char.ofNat_toNat]
  split at found
  case isTrue small =>
    obtain ⟨low, high⟩ := toNat_between small
    change 97 ≤ c.toNat at low
    change c.toNat ≤ 122 at high
    cases found
    refine ⟨by omega, ?_⟩
    rw [digit, if_neg (by omega), if_pos (by omega), Nat.add_sub_cancel' (by omega),
      Char.ofNat_toNat]
  split at found
  case isTrue decimal =>
    obtain ⟨low, high⟩ := toNat_between decimal
    change 48 ≤ c.toNat at low
    change c.toNat ≤ 57 at high
    cases found
    refine ⟨by omega, ?_⟩
    rw [digit, if_neg (by omega), if_neg (by omega), if_pos (by omega), Nat.add_sub_cancel,
      Char.ofNat_toNat]
  split at found
  case isTrue plus =>
    cases found
    exact ⟨by decide, plus.symm⟩
  split at found
  case isTrue slash =>
    cases found
    exact ⟨by decide, slash.symm⟩
  contradiction

/-- No digit is the padding character. -/
theorem digit_ne_padding {n : Nat} (small : n < 64) : digit n ≠ '=' := by
  intro same
  have none : value? '=' = none := by decide
  rw [← same, value?_digit small] at none
  contradiction

/-! ## Groups -/

/-- Four characters and the bytes that they stand for. The number that the letters write is that of
the bytes, with zero bits where the letters go beyond the last byte. -/
inductive Group : Char → Char → Char → Char → Bytes → Prop
  | one {x y : Nat} {p : UInt8} (xSmall : x < 64) (ySmall : y < 64)
      (number : x * 64 + y = p.toNat * 16) : Group (digit x) (digit y) '=' '=' [p]
  | two {x y z : Nat} {p q : UInt8} (xSmall : x < 64) (ySmall : y < 64) (zSmall : z < 64)
      (number : (x * 64 + y) * 64 + z = (p.toNat * 256 + q.toNat) * 4) :
      Group (digit x) (digit y) (digit z) '=' [p, q]
  | three {x y z w : Nat} {p q r : UInt8} (xSmall : x < 64) (ySmall : y < 64) (zSmall : z < 64)
      (wSmall : w < 64)
      (number : ((x * 64 + y) * 64 + z) * 64 + w = (p.toNat * 256 + q.toNat) * 256 + r.toNat) :
      Group (digit x) (digit y) (digit z) (digit w) [p, q, r]

theorem ofNat_eq {n : Nat} {p : UInt8} (same : n = p.toNat) : UInt8.ofNat n = p := by
  rw [same, UInt8.ofNat_toNat]

/-- The bytes of a group are read from it. -/
theorem Group.decodeLast? {a b c d : Char} {bytes : Bytes} (group : Group a b c d bytes) :
    decodeLast? a b c d = some bytes := by
  cases group with
  | @one x y p xSmall ySmall number =>
    have unused : y % 16 = 0 := by omega
    have first : (x * 64 + y) / 16 = p.toNat := by omega
    rw [Base64.decodeLast?, value?_digit xSmall, value?_digit ySmall]
    dsimp only
    rw [if_pos rfl, unused, ofNat_eq first]
    rfl
  | @two x y z p q xSmall ySmall zSmall number =>
    have last := q.toNat_lt
    have unused : z % 4 = 0 := by omega
    have first : ((x * 64 + y) * 64 + z) / 1024 = p.toNat := by omega
    have second : ((x * 64 + y) * 64 + z) / 4 % 256 = q.toNat := by omega
    rw [Base64.decodeLast?, value?_digit xSmall, value?_digit ySmall]
    dsimp only
    rw [if_neg (digit_ne_padding zSmall), value?_digit zSmall]
    dsimp only
    rw [if_pos rfl, if_pos unused, ofNat_eq first, ofNat_eq second]
  | @three x y z w p q r xSmall ySmall zSmall wSmall number =>
    have middle := q.toNat_lt
    have last := r.toNat_lt
    have first : (((x * 64 + y) * 64 + z) * 64 + w) / 65536 = p.toNat := by omega
    have second : (((x * 64 + y) * 64 + z) * 64 + w) / 256 % 256 = q.toNat := by omega
    have third : (((x * 64 + y) * 64 + z) * 64 + w) % 256 = r.toNat := by omega
    rw [Base64.decodeLast?, value?_digit xSmall, value?_digit ySmall]
    dsimp only
    rw [if_neg (digit_ne_padding zSmall), value?_digit zSmall]
    dsimp only
    rw [if_neg (digit_ne_padding wSmall), value?_digit wSmall]
    dsimp only
    rw [ofNat_eq first, ofNat_eq second, ofNat_eq third]

/-- **What is read from four characters** makes up a group with them. -/
theorem group_of_decodeLast? {a b c d : Char} {bytes : Bytes}
    (read : decodeLast? a b c d = some bytes) : Group a b c d bytes := by
  rw [decodeLast?] at read
  cases first : value? a with
  | none =>
    rw [first] at read
    contradiction
  | some x =>
  cases second : value? b with
  | none =>
    rw [first, second] at read
    contradiction
  | some y =>
  rw [first, second] at read
  obtain ⟨xSmall, rfl⟩ := digit_of_value? first
  obtain ⟨ySmall, rfl⟩ := digit_of_value? second
  dsimp only at read
  by_cases short : c = '='
  · rw [if_pos short] at read
    by_cases canonical : (d = '=' && y % 16 == 0) = true
    · rw [if_pos canonical] at read
      rw [Bool.and_eq_true, decide_eq_true_iff, beq_iff_eq] at canonical
      obtain ⟨padded, unused⟩ := canonical
      subst short padded
      cases read
      apply Group.one xSmall ySmall
      rw [toNat_ofNat (by omega)]
      omega
    · rw [if_neg canonical] at read
      contradiction
  rw [if_neg short] at read
  cases third : value? c with
  | none =>
    rw [third] at read
    contradiction
  | some z =>
  rw [third] at read
  obtain ⟨zSmall, rfl⟩ := digit_of_value? third
  dsimp only at read
  by_cases padded : d = '='
  · rw [if_pos padded] at read
    by_cases unused : z % 4 = 0
    · rw [if_pos unused] at read
      subst padded
      cases read
      apply Group.two xSmall ySmall zSmall
      rw [toNat_ofNat (by omega), toNat_ofNat (by omega)]
      omega
    · rw [if_neg unused] at read
      contradiction
  rw [if_neg padded] at read
  cases fourth : value? d with
  | none =>
    rw [fourth] at read
    contradiction
  | some w =>
  rw [fourth] at read
  obtain ⟨wSmall, rfl⟩ := digit_of_value? fourth
  cases read
  apply Group.three xSmall ySmall zSmall wSmall
  rw [toNat_ofNat (by omega), toNat_ofNat (by omega), toNat_ofNat (by omega)]
  omega

/-- The characters of a group are written for its bytes. -/
theorem Group.encodeChars {a b c d : Char} {bytes : Bytes} (group : Group a b c d bytes)
    (rest : Bytes) (whole : bytes.length = 3 ∨ rest = []) :
    encodeChars (bytes ++ rest) = a :: b :: c :: d :: encodeChars rest := by
  cases group with
  | @one x y p xSmall ySmall number =>
    obtain rfl := whole.resolve_left (by simp)
    change Base64.encodeChars [p] = [digit x, digit y, '=', '=']
    have first : p.toNat * 16 / 64 = x := by omega
    have second : p.toNat * 16 % 64 = y := by omega
    rw [Base64.encodeChars, first, second]
  | @two x y z p q xSmall ySmall zSmall number =>
    obtain rfl := whole.resolve_left (by simp)
    change Base64.encodeChars [p, q] = [digit x, digit y, digit z, '=']
    have first : (p.toNat * 256 + q.toNat) * 4 / 4096 = x := by omega
    have second : (p.toNat * 256 + q.toNat) * 4 / 64 % 64 = y := by omega
    have third : (p.toNat * 256 + q.toNat) * 4 % 64 = z := by omega
    rw [Base64.encodeChars, first, second, third]
  | @three x y z w p q r xSmall ySmall zSmall wSmall number =>
    change Base64.encodeChars (p :: q :: r :: rest) = _
    have first : ((p.toNat * 256 + q.toNat) * 256 + r.toNat) / 262144 = x := by omega
    have second : ((p.toNat * 256 + q.toNat) * 256 + r.toNat) / 4096 % 64 = y := by omega
    have third : ((p.toNat * 256 + q.toNat) * 256 + r.toNat) / 64 % 64 = z := by omega
    have fourth : ((p.toNat * 256 + q.toNat) * 256 + r.toNat) % 64 = w := by omega
    rw [Base64.encodeChars, first, second, third, fourth]

/-- One, two or three bytes are the bytes of a group. -/
theorem exists_group {bytes : Bytes} (some : bytes ≠ []) (short : bytes.length ≤ 3) :
    ∃ a b c d, Group a b c d bytes := by
  match bytes with
  | [] => exact absurd rfl some
  | [p] =>
    have bound := p.toNat_lt
    refine ⟨_, _, _, _, Group.one (x := p.toNat * 16 / 64) (y := p.toNat * 16 % 64) ?_ ?_ ?_⟩
    all_goals omega
  | [p, q] =>
    have first := p.toNat_lt
    have second := q.toNat_lt
    generalize number : (p.toNat * 256 + q.toNat) * 4 = n
    refine ⟨_, _, _, _,
      Group.two (x := n / 4096) (y := n / 64 % 64) (z := n % 64) ?_ ?_ ?_ ?_⟩
    all_goals omega
  | [p, q, r] =>
    have first := p.toNat_lt
    have second := q.toNat_lt
    have third := r.toNat_lt
    generalize number : (p.toNat * 256 + q.toNat) * 256 + r.toNat = n
    refine ⟨_, _, _, _, Group.three (x := n / 262144) (y := n / 4096 % 64) (z := n / 64 % 64)
      (w := n % 64) ?_ ?_ ?_ ?_ ?_⟩
    all_goals omega
  | _ :: _ :: _ :: _ :: _ =>
    rw [List.length_cons, List.length_cons, List.length_cons, List.length_cons] at short
    omega

/-! ## Texts -/

/-- The groups before the last one have three bytes. -/
theorem decodeChars?_group {a b c d : Char} {cs : List Char} {bytes rest : Bytes}
    (group : Group a b c d bytes) (whole : bytes.length = 3) (later : decodeChars? cs = some rest) :
    decodeChars? (a :: b :: c :: d :: cs) = some (bytes ++ rest) := by
  cases cs with
  | nil =>
    cases later
    rw [List.append_nil]
    exact group.decodeLast?
  | cons e cs =>
    have read := group.decodeLast?
    cases group with
    | one => cases whole
    | two => cases whole
    | three _ _ zSmall wSmall =>
      rw [decodeChars?, value?_digit zSmall, value?_digit wSmall, read, later]
      · rfl
      · exact nofun

theorem decodeChars?_encodeChars (bytes : Bytes) :
    decodeChars? (encodeChars bytes) = some bytes := by
  match bytes with
  | [] => rfl
  | [p] =>
    obtain ⟨a, b, c, d, group⟩ := exists_group (List.cons_ne_nil p []) (by simp)
    rw [← List.append_nil [p], group.encodeChars [] (.inr rfl)]
    exact group.decodeLast?
  | [p, q] =>
    obtain ⟨a, b, c, d, group⟩ := exists_group (List.cons_ne_nil p [q]) (by simp)
    rw [← List.append_nil [p, q], group.encodeChars [] (.inr rfl)]
    exact group.decodeLast?
  | p :: q :: r :: rest =>
    obtain ⟨a, b, c, d, group⟩ := exists_group (List.cons_ne_nil p [q, r]) (by simp)
    have written := group.encodeChars rest (.inl rfl)
    change encodeChars (p :: q :: r :: rest) = _ at written
    rw [written]
    exact decodeChars?_group group rfl (decodeChars?_encodeChars rest)

theorem encodeChars_of_decodeChars? {cs : List Char} {bytes : Bytes}
    (read : decodeChars? cs = some bytes) : encodeChars bytes = cs := by
  induction cs using decodeChars?.induct generalizing bytes with
  | case1 =>
    cases read
    rfl
  | case2 a b c d =>
    have written := (group_of_decodeLast? read).encodeChars [] (.inr rfl)
    rw [List.append_nil] at written
    exact written
  | case3 a b c d rest more z w here group fourth third ih =>
    rw [decodeChars?, third, fourth, group] at read
    · obtain ⟨later, found, rfl⟩ := Option.map_eq_some_iff.1 read
      have whole : here.length = 3 := by
        cases group_of_decodeLast? group with
        | one => cases third
        | two => cases fourth
        | three => rfl
      rw [(group_of_decodeLast? group).encodeChars later (.inl whole), ih found]
    · exact more
  | case4 a b c d rest more unreadable =>
    rw [decodeChars?] at read
    · split at read
      case h_1 third fourth group => exact (unreadable _ _ _ third fourth group).elim
      case h_2 => contradiction
    · exact more
  | case5 cs some notFour notMore =>
    match cs with
    | [] => exact (some rfl).elim
    | [_] | [_, _] | [_, _, _] => cases read
    | a :: b :: c :: d :: rest => exact (notMore a b c d rest rfl).elim

/-- What is written for bytes is read as these bytes. -/
theorem decode?_encode (bytes : Bytes) : decode? (encode bytes) = some bytes := by
  rw [decode?, encode, String.toList_ofList, decodeChars?_encodeChars]

/-- **A text that is read** is the one written for the bytes. -/
theorem decode?_eq_some_iff {s : String} {bytes : Bytes} :
    decode? s = some bytes ↔ s = encode bytes := by
  constructor
  · intro read
    rw [encode, encodeChars_of_decodeChars? read, String.ofList_toList]
  · rintro rfl
    exact decode?_encode bytes

/-! ## The standard -/

/-- The letters of the standard alphabet, in the order of their values. -/
def alphabet : List Char :=
  "ABCDEFGHIJKLMNOPQRSTUVWXYZabcdefghijklmnopqrstuvwxyz0123456789+/".toList

/-- The letter of a value. -/
def letter (value : Fin 64) : Char := alphabet.get ⟨value, value.isLt⟩

theorem digit_eq_letter (value : Fin 64) : digit value = letter value := by
  revert value
  decide

/-- Whether values of letters with some padding spell bytes: the letters hold the bits of the bytes
and two zero bits for each padding character, of which there are two at most. -/
structure Spells (values : List (Fin 64)) (padding : Nat) (bytes : Bytes) : Prop where
  padded : padding ≤ 2
  width : 6 * values.length = 8 * bytes.length + 2 * padding
  number : Nat.ofDigits 64 (values.map Fin.val).reverse =
    Nat.ofDigits 256 (bytes.map UInt8.toNat).reverse * 4 ^ padding

/-- Whether a text stands for bytes as the standard says: letters that spell the bytes, then the
padding, and nothing else. -/
def Standard (s : String) (bytes : Bytes) : Prop :=
  ∃ values padding, Spells values padding bytes ∧
    s.toList = values.map letter ++ List.replicate padding '='

theorem ofDigits_reverse_cons (base digit : Nat) (digits : List Nat) :
    Nat.ofDigits base (digit :: digits).reverse =
      digit * base ^ digits.length + Nat.ofDigits base digits.reverse := by
  rw [List.reverse_cons, Nat.ofDigits_append, Nat.ofDigits_singleton, List.length_reverse]
  ring

/-- One group more in front. -/
theorem Spells.cons {x y z w : Fin 64} {p q r : UInt8} {values : List (Fin 64)} {padding : Nat}
    {bytes : Bytes} (later : Spells values padding bytes)
    (number : ((x.val * 64 + y) * 64 + z) * 64 + w = (p.toNat * 256 + q.toNat) * 256 + r.toNat) :
    Spells (x :: y :: z :: w :: values) padding (p :: q :: r :: bytes) where
  padded := later.padded
  width := by
    have width := later.width
    simp only [List.length_cons]
    omega
  number := by
    have scale : 64 ^ values.length = 256 ^ bytes.length * 4 ^ padding := by
      have letters : 64 ^ values.length = 2 ^ (6 * values.length) := (pow_mul 2 6 _).symm
      have whole : 256 ^ bytes.length = 2 ^ (8 * bytes.length) := (pow_mul 2 8 _).symm
      have zeros : 4 ^ padding = 2 ^ (2 * padding) := (pow_mul 2 2 _).symm
      rw [letters, whole, zeros, later.width, pow_add]
    simp only [List.map_cons, ofDigits_reverse_cons, later.number, List.length_cons,
      List.length_map]
    calc x.val * 64 ^ (values.length + 1 + 1 + 1) + (y * 64 ^ (values.length + 1 + 1) +
          (z * 64 ^ (values.length + 1) + (w * 64 ^ values.length +
            Nat.ofDigits 256 (bytes.map UInt8.toNat).reverse * 4 ^ padding)))
        = (((x.val * 64 + y) * 64 + z) * 64 + w) * 64 ^ values.length +
            Nat.ofDigits 256 (bytes.map UInt8.toNat).reverse * 4 ^ padding := by ring
      _ = ((p.toNat * 256 + q.toNat) * 256 + r.toNat) * (256 ^ bytes.length * 4 ^ padding) +
            Nat.ofDigits 256 (bytes.map UInt8.toNat).reverse * 4 ^ padding := by
          rw [number, scale]
      _ = _ := by ring

/-- A text stands for bytes in one way only. -/
theorem Standard.unique {s other : String} {bytes : Bytes} (first : Standard s bytes)
    (second : Standard other bytes) : s = other := by
  obtain ⟨values, padding, spells, text⟩ := first
  obtain ⟨otherValues, otherPadding, otherSpells, otherText⟩ := second
  have sameWidth := spells.width
  have otherWidth := otherSpells.width
  have padded := spells.padded
  have otherPadded := otherSpells.padded
  have samePadding : padding = otherPadding := by omega
  subst samePadding
  have digits : (values.map Fin.val).reverse = (otherValues.map Fin.val).reverse := by
    refine Nat.ofDigits_inj_of_len_eq (b := 64) (by decide) ?_ ?_ ?_ ?_
    · rw [List.length_reverse, List.length_reverse, List.length_map, List.length_map]
      omega
    · intro digit member
      obtain ⟨value, _, rfl⟩ := List.mem_map.1 (List.mem_reverse.1 member)
      exact value.isLt
    · intro digit member
      obtain ⟨value, _, rfl⟩ := List.mem_map.1 (List.mem_reverse.1 member)
      exact value.isLt
    · rw [spells.number, otherSpells.number]
  have same : values = otherValues :=
    List.map_injective_iff.2 Fin.val_injective (List.reverse_inj.1 digits)
  rw [← String.toList_inj, text, otherText, same]

theorem spells_one {x y : Fin 64} {p : UInt8} (number : x.val * 64 + y = p.toNat * 16) :
    Spells [x, y] 2 [p] where
  padded := by decide
  width := rfl
  number := by
    simp only [List.map_cons, List.map_nil, ofDigits_reverse_cons, List.length_cons,
      List.length_nil, List.reverse_nil, Nat.ofDigits_nil]
    omega

theorem spells_two {x y z : Fin 64} {p q : UInt8}
    (number : (x.val * 64 + y) * 64 + z = (p.toNat * 256 + q.toNat) * 4) :
    Spells [x, y, z] 1 [p, q] where
  padded := by decide
  width := rfl
  number := by
    simp only [List.map_cons, List.map_nil, ofDigits_reverse_cons, List.length_cons,
      List.length_nil, List.reverse_nil, Nat.ofDigits_nil]
    omega

theorem exists_spells_encodeChars (bytes : Bytes) :
    ∃ values padding, Spells values padding bytes ∧
      encodeChars bytes = values.map letter ++ List.replicate padding '=' := by
  match bytes with
  | [] => exact ⟨[], 0, ⟨by decide, rfl, rfl⟩, rfl⟩
  | [p] =>
    obtain ⟨a, b, c, d, group⟩ := exists_group (List.cons_ne_nil p []) (by simp)
    have written := group.encodeChars [] (.inr rfl)
    cases group with
    | @one x y _ xSmall ySmall number =>
      refine ⟨[⟨x, xSmall⟩, ⟨y, ySmall⟩], 2, spells_one number, ?_⟩
      rw [List.map_cons, List.map_cons, ← digit_eq_letter, ← digit_eq_letter]
      exact written
  | [p, q] =>
    obtain ⟨a, b, c, d, group⟩ := exists_group (List.cons_ne_nil p [q]) (by simp)
    have written := group.encodeChars [] (.inr rfl)
    cases group with
    | @two x y z _ _ xSmall ySmall zSmall number =>
      refine ⟨[⟨x, xSmall⟩, ⟨y, ySmall⟩, ⟨z, zSmall⟩], 1, spells_two number, ?_⟩
      rw [List.map_cons, List.map_cons, List.map_cons, ← digit_eq_letter, ← digit_eq_letter,
        ← digit_eq_letter]
      exact written
  | p :: q :: r :: rest =>
    obtain ⟨values, padding, later, text⟩ := exists_spells_encodeChars rest
    obtain ⟨a, b, c, d, group⟩ := exists_group (List.cons_ne_nil p [q, r]) (by simp)
    have written := group.encodeChars rest (.inl rfl)
    cases group with
    | @three x y z w _ _ _ xSmall ySmall zSmall wSmall number =>
      refine ⟨⟨x, xSmall⟩ :: ⟨y, ySmall⟩ :: ⟨z, zSmall⟩ :: ⟨w, wSmall⟩ :: values, padding,
        later.cons number, ?_⟩
      rw [List.map_cons, List.map_cons, List.map_cons, List.map_cons, ← digit_eq_letter,
        ← digit_eq_letter, ← digit_eq_letter, ← digit_eq_letter]
      rw [text] at written
      exact written

/-- **What is written is what the standard asks for.** -/
theorem standard_encode (bytes : Bytes) : Standard (encode bytes) bytes := by
  obtain ⟨values, padding, spells, text⟩ := exists_spells_encodeChars bytes
  refine ⟨values, padding, spells, ?_⟩
  rw [encode, String.toList_ofList, text]

theorem standard_iff {s : String} {bytes : Bytes} : Standard s bytes ↔ s = encode bytes := by
  constructor
  · intro standard
    exact standard.unique (standard_encode bytes)
  · rintro rfl
    exact standard_encode bytes

end ShaderChain.Text.Base64
