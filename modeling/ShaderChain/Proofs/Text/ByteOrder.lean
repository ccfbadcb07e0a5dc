import Mathlib.Data.String.Basic
import ShaderChain.Proofs.Text.Utf8

/-!
# The order of texts and of their bytes

Texts are ordered character by character, by the numbers of the characters. Their
encodings, ordered byte by byte, are in the same order (`encode_lt_encode_iff`).

The bytes of a smaller character are smaller whatever comes after them
(`encodeValue_append_lt`): a leading byte tells first how many bytes follow and then
the high bits of the character, and the following bytes tell the lower bits.
-/

set_option autoImplicit false

namespace ShaderChain.Text

/-! ## Bytes -/

/-- Bytes are compared one by one. -/
theorem ofNat_cons_lt_iff {a b : Nat} (aSmall : a < 256) (bSmall : b < 256) (xs ys : Bytes) :
    UInt8.ofNat a :: xs < UInt8.ofNat b :: ys ↔ a < b ∨ a = b ∧ xs < ys := by
  rw [List.cons_lt_cons_iff, UInt8.lt_iff_toNat_lt, ← UInt8.toNat_inj, toNat_ofNat aSmall,
    toNat_ofNat bSmall]

/-- A smaller leading byte decides. -/
theorem lead_lt {a b : Nat} (less : a < b) (small : b < 256) (xs ys : Bytes) :
    UInt8.ofNat a :: xs < UInt8.ofNat b :: ys :=
  (ofNat_cons_lt_iff (less.trans small) small xs ys).2 (.inl less)

theorem tail_cons_lt_iff (v w : Nat) (xs ys : Bytes) :
    tail v :: xs < tail w :: ys ↔ v % 64 < w % 64 ∨ v % 64 = w % 64 ∧ xs < ys := by
  rw [tail, tail, ofNat_cons_lt_iff (by omega) (by omega), Nat.add_lt_add_iff_right,
    Nat.add_right_cancel_iff]

/-! ## Characters -/

/-- A smaller number has a smaller rest, or the same and smaller six low bits. -/
theorem six_bits_lt {v w : Nat} (less : v < w) :
    v / 64 < w / 64 ∨ v / 64 = w / 64 ∧ v % 64 < w % 64 := by
  omega

/-- **The bytes of a smaller value** are smaller, whatever follows them. -/
theorem encodeValue_append_lt {v w : Nat} (less : v < w) (valid : w < 0x110000) (xs ys : Bytes) :
    encodeValue v ++ xs < encodeValue w ++ ys := by
  -- The larger value has as many bytes or more; if it has more, the leading bytes decide.
  rw [encodeValue, encodeValue]
  split
  case isTrue =>
    split
    · exact lead_lt (by omega) (by omega) _ _
    · split
      · exact lead_lt (by omega) (by omega) _ _
      · split
        · exact lead_lt (by omega) (by omega) _ _
        · exact lead_lt (by omega) (by omega) _ _
  case isFalse =>
    rw [if_neg (by omega : ¬ w ≤ 0x7F)]
    split
    case isTrue =>
      split
      · simp only [List.cons_append, List.nil_append]
        rw [ofNat_cons_lt_iff (by omega) (by omega), tail_cons_lt_iff]
        omega
      · split
        · exact lead_lt (by omega) (by omega) _ _
        · exact lead_lt (by omega) (by omega) _ _
    case isFalse =>
      rw [if_neg (by omega : ¬ w ≤ 0x7FF)]
      split
      case isTrue =>
        split
        · simp only [List.cons_append, List.nil_append]
          rw [ofNat_cons_lt_iff (by omega) (by omega), tail_cons_lt_iff, tail_cons_lt_iff]
          omega
        · exact lead_lt (by omega) (by omega) _ _
      case isFalse =>
        rw [if_neg (by omega : ¬ w ≤ 0xFFFF)]
        simp only [List.cons_append, List.nil_append]
        rw [ofNat_cons_lt_iff (by omega) (by omega), tail_cons_lt_iff, tail_cons_lt_iff,
          tail_cons_lt_iff]
        rcases six_bits_lt less with high | ⟨same, low⟩
        · rcases six_bits_lt high with higher | ⟨same, low⟩
          · rcases six_bits_lt higher with highest | ⟨same, low⟩
            · omega
            · omega
          · omega
        · omega

theorem utf8EncodeChar_append_lt {c d : Char} (less : c < d) (xs ys : Bytes) :
    String.utf8EncodeChar c ++ xs < String.utf8EncodeChar d ++ ys := by
  have valid : d.toNat < 0x110000 := (toNat_valid d).elim (by omega) And.right
  rw [encodeChar_eq, encodeChar_eq]
  exact encodeValue_append_lt less valid xs ys

/-! ## Texts -/

theorem flatMap_utf8EncodeChar_lt {cs ds : List Char} (less : cs < ds) :
    cs.flatMap String.utf8EncodeChar < ds.flatMap String.utf8EncodeChar := by
  induction cs generalizing ds with
  | nil =>
    cases ds with
    | nil => exact absurd less (List.not_lt_nil _)
    | cons d ds =>
      obtain ⟨lead, more, bytes, _⟩ := front_encodeChar d
      rw [List.flatMap_nil, List.flatMap_cons, bytes]
      exact List.nil_lt_cons _ _
  | cons c cs ih =>
    cases ds with
    | nil => exact absurd less (List.not_lt_nil _)
    | cons d ds =>
      rw [List.flatMap_cons, List.flatMap_cons]
      rcases List.cons_lt_cons_iff.1 less with first | ⟨rfl, later⟩
      · exact utf8EncodeChar_append_lt first _ _
      · exact List.append_left_lt (ih later)

/-- **Encodings are in the order of their texts.** -/
theorem encode_lt_encode_iff {s t : String} : encode s < encode t ↔ s < t := by
  rw [String.lt_iff_toList_lt, encode, encode]
  constructor
  · intro less
    by_contra notLess
    rcases List.le_iff_lt_or_eq.1 notLess with greater | same
    · exact List.lt_asymm less (flatMap_utf8EncodeChar_lt greater)
    · rw [same] at less
      exact List.lt_irrefl _ less
  · exact flatMap_utf8EncodeChar_lt

end ShaderChain.Text
