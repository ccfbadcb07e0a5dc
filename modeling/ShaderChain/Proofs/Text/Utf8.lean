import Mathlib.Data.List.Forall2
import Mathlib.Tactic.SplitIfs
import ShaderChain.Text.Utf8

/-!
# Texts read back from their bytes

The bytes of a character are a leading byte, which tells how many follow and
between which bounds they lie, and following bytes with six bits of the character
each (`encodeChar_fits`); all such bytes are those of a character
(`encodeChar_of_fit`). So `front` finds exactly the character whose bytes stand in
front, whatever comes after it (`front_encodeChar`, `encodeChar_of_front`), and the
bytes of a text decode to the text (`decode?_encode`).
-/

set_option autoImplicit false

namespace ShaderChain.Text

theorem toNat_ofNat {n : Nat} (small : n < 256) : (UInt8.ofNat n).toNat = n := by
  rw [UInt8.toNat_ofNat']
  exact Nat.mod_eq_of_lt small

theorem within_iff {bounds : Nat × Nat} {byte : UInt8} :
    within bounds byte = true ↔ bounds.1 ≤ byte.toNat ∧ byte.toNat ≤ bounds.2 := by
  rw [within, Bool.and_eq_true, decide_eq_true_iff, decide_eq_true_iff]

/-! ## Following bytes -/

/-- The byte that holds the six low bits of a number. -/
def tail (n : Nat) : UInt8 := .ofNat (n % 64 + 128)

theorem toNat_tail (n : Nat) : (tail n).toNat = n % 64 + 128 :=
  toNat_ofNat (by omega)

theorem within_tail (n : Nat) : within (0x80, 0xBF) (tail n) = true := by
  rw [within_iff, toNat_tail]
  dsimp only
  omega

theorem payloadBits_tail (n : Nat) : payloadBits (tail n) = n % 64 := by
  rw [payloadBits, toNat_tail]
  omega

/-- The bounds of a second byte are those of any following byte, but for four leading bytes. -/
theorem within_secondBounds_iff {lead : Nat} {byte : UInt8} :
    within (secondBounds lead) byte = true ↔ (0x80 ≤ byte.toNat ∧ byte.toNat ≤ 0xBF) ∧
      (lead = 0xE0 → 0xA0 ≤ byte.toNat) ∧ (lead = 0xED → byte.toNat ≤ 0x9F) ∧
      (lead = 0xF0 → 0x90 ≤ byte.toNat) ∧ (lead = 0xF4 → byte.toNat ≤ 0x8F) := by
  rw [within_iff, secondBounds]
  split_ifs
  all_goals
    dsimp only
    omega

/-- Bytes that lie within bounds, one after the other. -/
def Fit (bounds : List (Nat × Nat)) (bytes : Bytes) : Prop :=
  List.Forall₂ (fun limits byte => within limits byte = true) bounds bytes

theorem fitting_append {bounds : List (Nat × Nat)} {bytes : Bytes} (fit : Fit bounds bytes)
    (rest : Bytes) : fitting bounds (bytes ++ rest) = bytes.length := by
  induction fit with
  | nil => rfl
  | cons here _ ih => rw [List.cons_append, fitting, if_pos here, ih, List.length_cons]

/-- The bytes that are counted lie within the bounds. -/
theorem fit_take_fitting (bounds : List (Nat × Nat)) (bytes : Bytes) :
    Fit (bounds.take (fitting bounds bytes)) (bytes.take (fitting bounds bytes)) := by
  induction bounds generalizing bytes with
  | nil => exact .nil
  | cons limits more ih =>
    cases bytes with
    | nil => exact .nil
    | cons byte rest =>
      rw [fitting]
      by_cases here : within limits byte = true
      · rw [if_pos here]
        exact .cons here (ih rest)
      · rw [if_neg here]
        exact .nil

/-- Bytes in front that lie within the bounds are all counted. -/
theorem length_le_fitting {bounds : List (Nat × Nat)} {front rest : Bytes}
    (fit : Fit (bounds.take front.length) front) :
    front.length ≤ fitting bounds (front ++ rest) := by
  induction front generalizing bounds with
  | nil => exact Nat.zero_le _
  | cons byte more ih =>
    cases bounds with
    | nil => cases fit
    | cons limits others =>
      cases fit with
      | cons here later =>
        rw [List.cons_append, fitting, if_pos here]
        exact Nat.succ_le_succ (ih later)

theorem fitting_le_length (bounds : List (Nat × Nat)) (bytes : Bytes) :
    fitting bounds bytes ≤ bytes.length := by
  induction bounds generalizing bytes with
  | nil => exact Nat.zero_le _
  | cons limits more ih =>
    cases bytes with
    | nil => exact Nat.le_refl 0
    | cons byte rest =>
      rw [fitting]
      split
      · exact Nat.succ_le_succ (ih rest)
      · exact Nat.zero_le _

/-! ## Characters -/

/-- The value of a character is no surrogate and not too large. -/
theorem toNat_valid (c : Char) : c.toNat < 0xD800 ∨ 0xDFFF < c.toNat ∧ c.toNat < 0x110000 :=
  c.valid

theorem toNat_ofNat_of_valid {v : Nat} (valid : v < 0xD800 ∨ 0xDFFF < v ∧ v < 0x110000) :
    (Char.ofNat v).toNat = v := by
  have isChar : v.isValidChar := valid
  rw [Char.ofNat, dif_pos isChar]
  rfl

/-- The bytes of a value. -/
def encodeValue (v : Nat) : Bytes :=
  if v ≤ 0x7F then [.ofNat v]
  else if v ≤ 0x7FF then [.ofNat (v / 64 % 32 + 0xC0), tail v]
  else if v ≤ 0xFFFF then [.ofNat (v / 4096 % 16 + 0xE0), tail (v / 64), tail v]
  else [.ofNat (v / 262144 % 8 + 0xF0), tail (v / 4096), tail (v / 64), tail v]

theorem encodeChar_eq (c : Char) : String.utf8EncodeChar c = encodeValue c.toNat := rfl

/-- **The bytes of a character** are a leading byte and others within the bounds that it sets, and
their value is that of the character. -/
theorem encodeChar_fits (c : Char) : ∃ lead more bounds, String.utf8EncodeChar c = lead :: more ∧
    followers? lead.toNat = some bounds ∧ Fit bounds more ∧ valueOf lead.toNat more = c.toNat := by
  have valid := toNat_valid c
  rw [encodeChar_eq, encodeValue]
  generalize c.toNat = v at valid ⊢
  split
  case isTrue small =>
    refine ⟨.ofNat v, [], [], rfl, ?_, .nil, toNat_ofNat (by omega)⟩
    rw [followers?, toNat_ofNat (by omega), if_pos (by omega)]
  case isFalse large =>
    split
    case isTrue small =>
      refine ⟨.ofNat (v / 64 % 32 + 0xC0), [tail v], [(0x80, 0xBF)], rfl, ?_,
        .cons (within_tail v) .nil, ?_⟩
      · rw [followers?, toNat_ofNat (by omega), if_neg (by omega), if_neg (by omega),
          if_pos (by omega)]
      · rw [valueOf, toNat_ofNat (by omega), payloadBits_tail]
        omega
    case isFalse large =>
      split
      case isTrue small =>
        have lead : (UInt8.ofNat (v / 4096 % 16 + 0xE0)).toNat = v / 4096 % 16 + 0xE0 :=
          toNat_ofNat (by omega)
        have second : within (secondBounds (v / 4096 % 16 + 0xE0)) (tail (v / 64)) = true := by
          rw [within_secondBounds_iff, toNat_tail]
          omega
        refine ⟨.ofNat (v / 4096 % 16 + 0xE0), [tail (v / 64), tail v],
          [secondBounds (v / 4096 % 16 + 0xE0), (0x80, 0xBF)], rfl, ?_,
          .cons second (.cons (within_tail v) .nil), ?_⟩
        · rw [followers?, lead, if_neg (by omega), if_neg (by omega), if_neg (by omega),
            if_pos (by omega)]
        · rw [valueOf, lead, payloadBits_tail, payloadBits_tail]
          omega
      case isFalse large =>
        have lead : (UInt8.ofNat (v / 262144 % 8 + 0xF0)).toNat = v / 262144 % 8 + 0xF0 :=
          toNat_ofNat (by omega)
        have second : within (secondBounds (v / 262144 % 8 + 0xF0)) (tail (v / 4096)) = true := by
          rw [within_secondBounds_iff, toNat_tail]
          omega
        refine ⟨.ofNat (v / 262144 % 8 + 0xF0), [tail (v / 4096), tail (v / 64), tail v],
          [secondBounds (v / 262144 % 8 + 0xF0), (0x80, 0xBF), (0x80, 0xBF)], rfl, ?_,
          .cons second (.cons (within_tail _) (.cons (within_tail v) .nil)), ?_⟩
        · rw [followers?, lead, if_neg (by omega), if_neg (by omega), if_neg (by omega),
            if_neg (by omega), if_pos (by omega)]
        · rw [valueOf, lead, payloadBits_tail, payloadBits_tail, payloadBits_tail]
          omega

/-- A byte is told by its value. -/
theorem ofNat_eq {n : Nat} {byte : UInt8} (same : n = byte.toNat) : UInt8.ofNat n = byte := by
  rw [same, UInt8.ofNat_toNat]

/-- **All bytes within the bounds of a leading byte** are with it those of a character. -/
theorem encodeChar_of_fit {lead : UInt8} {more : Bytes} {bounds : List (Nat × Nat)}
    (begins : followers? lead.toNat = some bounds) (fit : Fit bounds more) :
    String.utf8EncodeChar (Char.ofNat (valueOf lead.toNat more)) = lead :: more := by
  rw [followers?] at begins
  split_ifs at begins with isOne isNone isTwo isThree isFour
  · cases begins
    cases fit
    rw [valueOf, encodeChar_eq, toNat_ofNat_of_valid (by omega), encodeValue, if_pos (by omega),
      UInt8.ofNat_toNat]
  · cases begins
    match more, fit with
    | [second], .cons secondFits .nil =>
      have secondBits := within_iff.1 secondFits
      dsimp only at secondBits
      obtain ⟨v, value⟩ : ∃ v, v = lead.toNat % 32 * 64 + second.toNat % 64 := ⟨_, rfl⟩
      have isLead : UInt8.ofNat (v / 64 % 32 + 0xC0) = lead := ofNat_eq (by omega)
      have isSecond : tail v = second := ofNat_eq (by omega)
      change String.utf8EncodeChar (Char.ofNat (lead.toNat % 32 * 64 + second.toNat % 64)) = _
      rw [← value, encodeChar_eq, toNat_ofNat_of_valid (by omega), encodeValue,
        if_neg (by omega), if_pos (by omega), isLead, isSecond]
  · cases begins
    match more, fit with
    | [second, third], .cons secondFits (.cons thirdFits .nil) =>
      have secondBits := within_secondBounds_iff.1 secondFits
      have thirdBits := within_iff.1 thirdFits
      dsimp only at thirdBits
      obtain ⟨v, value⟩ : ∃ v, v = (lead.toNat % 16 * 64 + second.toNat % 64) * 64 +
        third.toNat % 64 := ⟨_, rfl⟩
      have isLead : UInt8.ofNat (v / 4096 % 16 + 0xE0) = lead := ofNat_eq (by omega)
      have isSecond : tail (v / 64) = second := ofNat_eq (by omega)
      have isThird : tail v = third := ofNat_eq (by omega)
      change String.utf8EncodeChar (Char.ofNat ((lead.toNat % 16 * 64 + second.toNat % 64) * 64 +
        third.toNat % 64)) = _
      rw [← value, encodeChar_eq, toNat_ofNat_of_valid (by omega), encodeValue, if_neg (by omega),
        if_neg (by omega), if_pos (by omega), isLead, isSecond, isThird]
  · cases begins
    match more, fit with
    | [second, third, fourth], .cons secondFits (.cons thirdFits (.cons fourthFits .nil)) =>
      have secondBits := within_secondBounds_iff.1 secondFits
      have thirdBits := within_iff.1 thirdFits
      have fourthBits := within_iff.1 fourthFits
      dsimp only at thirdBits fourthBits
      obtain ⟨v, value⟩ : ∃ v, v = ((lead.toNat % 8 * 64 + second.toNat % 64) * 64 +
        third.toNat % 64) * 64 + fourth.toNat % 64 := ⟨_, rfl⟩
      have isLead : UInt8.ofNat (v / 262144 % 8 + 0xF0) = lead := ofNat_eq (by omega)
      have isSecond : tail (v / 4096) = second := ofNat_eq (by omega)
      have isThird : tail (v / 64) = third := ofNat_eq (by omega)
      have isFourth : tail v = fourth := ofNat_eq (by omega)
      change String.utf8EncodeChar (Char.ofNat (((lead.toNat % 8 * 64 + second.toNat % 64) * 64 +
        third.toNat % 64) * 64 + fourth.toNat % 64)) = _
      rw [← value, encodeChar_eq, toNat_ofNat_of_valid (by omega), encodeValue, if_neg (by omega),
        if_neg (by omega), if_neg (by omega), isLead, isSecond, isThird, isFourth]

/-! ## Reading -/

/-- **The character at the front of its bytes** is found again, whatever follows. -/
theorem front_encodeChar (c : Char) : ∃ lead more, String.utf8EncodeChar c = lead :: more ∧
    ∀ rest, front lead (more ++ rest) = (some c, more.length) := by
  obtain ⟨lead, more, bounds, bytes, begins, fit, value⟩ := encodeChar_fits c
  refine ⟨lead, more, bytes, fun rest => ?_⟩
  rw [front, begins]
  dsimp only
  rw [fitting_append fit, if_pos (List.Forall₂.length_eq fit).symm, List.take_left, value,
    Char.ofNat_toNat]

/-- **A character that is found** stands in front with its bytes. -/
theorem encodeChar_of_front {lead : UInt8} {rest : Bytes} {c : Char} {count : Nat}
    (found : front lead rest = (some c, count)) :
    String.utf8EncodeChar c = lead :: rest.take count := by
  rw [front] at found
  split at found
  case h_1 none => cases found
  case h_2 bounds begins =>
    dsimp only at found
    split at found
    case isTrue whole =>
      cases found
      have fit := fit_take_fitting bounds rest
      rw [List.take_of_length_le (Nat.le_of_eq whole.symm)] at fit
      exact encodeChar_of_fit begins fit
    case isFalse => cases found

/-- **The bytes of a text** decode to the text. -/
theorem decode?_encode (s : String) : decode? (encode s) = some s := by
  have chars : ∀ cs : List Char, decodeChars? (cs.flatMap String.utf8EncodeChar) = some cs := by
    intro cs
    induction cs with
    | nil => rw [List.flatMap_nil, decodeChars?]
    | cons c cs ih =>
      obtain ⟨lead, more, bytes, found⟩ := front_encodeChar c
      rw [List.flatMap_cons, bytes, List.cons_append, decodeChars?, found]
      dsimp only
      rw [List.drop_left, ih]
      rfl
  rw [decode?, encode, chars]
  exact congrArg some String.ofList_toList

end ShaderChain.Text
