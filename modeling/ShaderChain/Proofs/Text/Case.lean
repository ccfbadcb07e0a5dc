import Mathlib.Data.List.Forall2
import ShaderChain.Text.Split

/-!
# Words in capital or small letters

Making the ASCII letters of a text small forgets their case and nothing else: two
texts become the same exactly if they are the same up to the case of ASCII letters
(`lowerAscii_eq_iff`).
-/

set_option autoImplicit false

namespace ShaderChain.Text

/-- Whether two characters are the same, or an ASCII capital letter and its small letter. -/
inductive SameLetter : Char → Char → Prop where
  | same {c : Char} : SameLetter c c
  | capital {c d : Char} (upper : c.isUpper = true) (apart : d.toNat = c.toNat + 32) :
      SameLetter c d
  | small {c d : Char} (upper : d.isUpper = true) (apart : c.toNat = d.toNat + 32) :
      SameLetter c d

/-- Whether two words are the same up to the case of ASCII letters. -/
def SameWord : List Char → List Char → Prop := List.Forall₂ SameLetter

theorem SameWord.refl (cs : List Char) : SameWord cs cs :=
  List.forall₂_same.2 fun _ _ => .same

theorem isUpper_iff {c : Char} : c.isUpper = true ↔ 65 ≤ c.toNat ∧ c.toNat ≤ 90 := by
  unfold Char.isUpper
  rw [decide_eq_true_eq, ge_iff_le, UInt32.le_iff_toNat_le, UInt32.le_iff_toNat_le]
  rfl

theorem toNat_toLower (c : Char) :
    c.toLower.toNat = if c.isUpper = true then c.toNat + 32 else c.toNat := by
  by_cases upper : c.isUpper = true
  · have letter : c.val ≥ 'A'.val ∧ c.val ≤ 'Z'.val := of_decide_eq_true upper
    obtain ⟨_, high⟩ := isUpper_iff.1 upper
    unfold Char.toLower
    rw [if_pos upper, dif_pos letter]
    change (c.val + 32).toNat = _
    rw [UInt32.toNat_add]
    change (c.toNat + 32) % 4294967296 = _
    omega
  · have other : ¬ (c.val ≥ 'A'.val ∧ c.val ≤ 'Z'.val) :=
      fun letter => upper (decide_eq_true letter)
    unfold Char.toLower
    rw [if_neg upper, dif_neg other]

/-- Two characters have one small letter exactly if they are the same up to their case. -/
theorem toLower_eq_iff {c d : Char} : c.toLower = d.toLower ↔ SameLetter c d := by
  rw [← Char.toNat_inj, toNat_toLower, toNat_toLower]
  constructor
  · intro same
    by_cases upper : c.isUpper = true
    · by_cases other : d.isUpper = true
      · rw [if_pos upper, if_pos other] at same
        rw [Char.toNat_inj.1 (Nat.add_right_cancel same)]
        exact .same
      · rw [if_pos upper, if_neg other] at same
        exact .capital upper same.symm
    · by_cases other : d.isUpper = true
      · rw [if_neg upper, if_pos other] at same
        exact .small other same
      · rw [if_neg upper, if_neg other] at same
        rw [Char.toNat_inj.1 same]
        exact .same
  · -- A small letter is no capital one, being 32 above one.
    have notUpper {small capital : Char} (upper : capital.isUpper = true)
        (apart : small.toNat = capital.toNat + 32) : ¬ small.isUpper = true := by
      rw [isUpper_iff] at upper ⊢
      omega
    rintro (_ | ⟨upper, apart⟩ | ⟨upper, apart⟩)
    · rfl
    · rw [if_pos upper, if_neg (notUpper upper apart), apart]
    · rw [if_pos upper, if_neg (notUpper upper apart), apart]

/-- What was made small stays as it is. -/
theorem toLower_toLower (c : Char) : c.toLower.toLower = c.toLower := by
  refine toLower_eq_iff.2 ?_
  have apart := toNat_toLower c
  split at apart
  case isTrue upper => exact .small upper apart
  case isFalse =>
    rw [Char.toNat_inj.1 apart]
    exact .same

/-- Two words are the same when they are made small exactly if they are the same up to their
case. -/
theorem map_toLower_eq_iff {cs word : List Char} :
    cs.map Char.toLower = word.map Char.toLower ↔ SameWord cs word := by
  rw [← List.forall₂_eq_eq_eq, List.forall₂_map_left_iff, List.forall₂_map_right_iff]
  constructor
  · intro same
    exact same.imp fun _ _ => toLower_eq_iff.1
  · intro same
    exact List.Forall₂.imp (fun _ _ => toLower_eq_iff.2) same

theorem lowerAscii_eq_iff {s word : String} :
    lowerAscii s = lowerAscii word ↔ SameWord s.toList word.toList := by
  rw [lowerAscii, lowerAscii, String.ofList_inj, map_toLower_eq_iff]

end ShaderChain.Text
