import ShaderChain.Proofs.Text.Utf8

/-!
# Decoding that cannot fail

Bytes that are no text are decoded all the same. Where the bytes of a character
stand, they stand for the character. Where none do, a replacement character stands
for the longest part there that the bytes of some character begin with, or for a
single byte if there is no such part (`Torn`). One such part is the only one
(`Torn.unique`), so there is one way only to read bytes (`ReadsAs`), and it is what
`decodeLossy` does (`readsAs_iff`). The bytes of a text are read as the text
(`decodeLossy_encode`).
-/

set_option autoImplicit false

namespace ShaderChain.Text

/-- The character that stands for bytes that encode none. -/
def replacement : Char := Char.ofNat 0xFFFD

/-- Whether the bytes of a character begin with these bytes. -/
def BeginsChar (part : Bytes) : Prop := ∃ c : Char, part <+: String.utf8EncodeChar c

/-- A part in front of other bytes that stands for a replacement character: no character stands
there; the part is a single byte, or the bytes of a character begin with it; and no longer part is
like this. -/
structure Torn (part rest : Bytes) : Prop where
  nonempty : part ≠ []
  noChar : ∀ c : Char, ¬ String.utf8EncodeChar c <+: part ++ rest
  begins : part.length = 1 ∨ BeginsChar part
  maximal : ∀ longer, longer <+: part ++ rest → part.length < longer.length → ¬ BeginsChar longer

/-- What bytes are read as: one character after the other, with a replacement character for each
part that encodes none. -/
inductive ReadsAs : Bytes → List Char → Prop where
  | nil : ReadsAs [] []
  | char (c : Char) {rest : Bytes} {cs : List Char} (later : ReadsAs rest cs) :
      ReadsAs (String.utf8EncodeChar c ++ rest) (c :: cs)
  | torn {part rest : Bytes} {cs : List Char} (isTorn : Torn part rest)
      (later : ReadsAs rest cs) : ReadsAs (part ++ rest) (replacement :: cs)

/-! ## Parts that encode no character -/

/-- Between the bounds of a following byte there is a byte. -/
theorem within_least {lead : Nat} {bounds : List (Nat × Nat)}
    (begins : followers? lead = some bounds) :
    ∀ limits ∈ bounds, within limits (.ofNat limits.1) = true := by
  have second : within (secondBounds lead) (.ofNat (secondBounds lead).1) = true := by
    rw [secondBounds]
    split_ifs
    all_goals decide
  rw [followers?] at begins
  split_ifs at begins
  all_goals
    cases begins
    simp [second]
  all_goals decide

/-- **The bytes of a character begin with those** that fit the first bounds of the ones behind a
leading byte, and with no others. -/
theorem beginsChar_iff {lead : UInt8} {front : Bytes} :
    BeginsChar (lead :: front) ↔
      ∃ bounds, followers? lead.toNat = some bounds ∧ Fit (bounds.take front.length) front := by
  constructor
  · rintro ⟨c, isFront⟩
    obtain ⟨first, more, bounds, bytes, follows, fit, _⟩ := encodeChar_fits c
    rw [bytes, List.cons_prefix_cons] at isFront
    obtain ⟨rfl, isFront⟩ := isFront
    have taken := List.forall₂_take front.length fit
    rw [← List.prefix_iff_eq_take.1 isFront] at taken
    exact ⟨bounds, follows, taken⟩
  · rintro ⟨bounds, follows, fit⟩
    let others := bounds.drop front.length
    let ending : Bytes := others.map fun limits => .ofNat limits.1
    have endingFits : Fit others ending := by
      rw [Fit, List.forall₂_map_right_iff, List.forall₂_same]
      exact fun limits member => within_least follows limits (List.mem_of_mem_drop member)
    have whole : Fit bounds (front ++ ending) := by
      have both : Fit (bounds.take front.length ++ others) (front ++ ending) :=
        List.rel_append fit endingFits
      rwa [List.take_append_drop] at both
    exact ⟨_, ending, (encodeChar_of_fit follows whole).symm⟩

/-- No character stands in front of bytes at which none is found. -/
theorem noChar_of_front {lead : UInt8} {rest : Bytes} {count : Nat}
    (missing : front lead rest = (none, count)) (c : Char) :
    ¬ String.utf8EncodeChar c <+: lead :: rest := by
  obtain ⟨first, more, bytes, found⟩ := front_encodeChar c
  rw [bytes, List.cons_prefix_cons]
  rintro ⟨rfl, after, rfl⟩
  rw [found] at missing
  cases missing

/-- **Where no character is found** the part that is passed over is torn. -/
theorem torn_of_front {lead : UInt8} {rest : Bytes} {count : Nat}
    (missing : front lead rest = (none, count)) :
    Torn (lead :: rest.take count) (rest.drop count) := by
  have whole : lead :: rest.take count ++ rest.drop count = lead :: rest := by
    rw [List.cons_append, List.take_append_drop]
  refine ⟨List.cons_ne_nil _ _, ?_, ?_, ?_⟩
  · rw [whole]
    exact noChar_of_front missing
  · rw [front] at missing
    split at missing
    case h_1 =>
      cases missing
      exact .inl rfl
    case h_2 bounds follows =>
      dsimp only at missing
      split at missing
      case isTrue => cases missing
      case isFalse =>
        cases missing
        have length := List.length_take_of_le (fitting_le_length bounds rest)
        refine .inr (beginsChar_iff.2 ⟨bounds, follows, ?_⟩)
        rw [length]
        exact fit_take_fitting bounds rest
  · rw [whole]
    intro longer isFront long begins
    cases longer with
    | nil => exact absurd long (Nat.not_lt_zero _)
    | cons first others =>
      obtain ⟨rfl, after, rfl⟩ := List.cons_prefix_cons.1 isFront
      obtain ⟨bounds, follows, fit⟩ := beginsChar_iff.1 begins
      have counted : others.length ≤ fitting bounds (others ++ after) := length_le_fitting fit
      have length := List.length_take_of_le (fitting_le_length bounds (others ++ after))
      rw [front, follows] at missing
      dsimp only at missing
      split at missing
      case isTrue => cases missing
      case isFalse =>
        cases missing
        rw [List.length_cons, List.length_cons, length] at long
        omega

/-- **There is one torn part** at most in front of given bytes. -/
theorem Torn.unique {part rest other otherRest : Bytes} (torn : Torn part rest)
    (otherTorn : Torn other otherRest) (same : part ++ rest = other ++ otherRest) :
    part = other ∧ rest = otherRest := by
  have notLonger {part rest other otherRest : Bytes} (torn : Torn part rest)
      (otherTorn : Torn other otherRest) (same : part ++ rest = other ++ otherRest) :
      other.length ≤ part.length := by
    by_contra longer
    have isFront : other <+: part ++ rest := ⟨otherRest, same.symm⟩
    rcases otherTorn.begins with single | begins
    · have some := List.length_pos_of_ne_nil torn.nonempty
      omega
    · exact torn.maximal other isFront (Nat.lt_of_not_le longer) begins
  have lengths := Nat.le_antisymm (notLonger otherTorn torn same.symm)
    (notLonger torn otherTorn same)
  exact List.append_inj same lengths

/-! ## Reading -/

theorem decodeLossyChars_encodeChar (c : Char) (rest : Bytes) :
    decodeLossyChars (String.utf8EncodeChar c ++ rest) = c :: decodeLossyChars rest := by
  obtain ⟨lead, more, bytes, found⟩ := front_encodeChar c
  rw [bytes, List.cons_append, decodeLossyChars, found]
  dsimp only
  rw [List.drop_left]
  rfl

theorem decodeLossyChars_torn {part rest : Bytes} (torn : Torn part rest) :
    decodeLossyChars (part ++ rest) = replacement :: decodeLossyChars rest := by
  cases part with
  | nil => exact absurd rfl torn.nonempty
  | cons lead more =>
    rw [List.cons_append, decodeLossyChars]
    cases missing : front lead (more ++ rest) with
    | mk found count =>
      cases found with
      | some c =>
        have stands := encodeChar_of_front missing
        refine absurd ⟨(more ++ rest).drop count, ?_⟩ (torn.noChar c)
        rw [stands, List.cons_append, List.take_append_drop, List.cons_append]
      | none =>
        have own := torn_of_front missing
        have whole : lead :: (more ++ rest).take count ++ (more ++ rest).drop count =
            lead :: more ++ rest := by
          rw [List.cons_append, List.take_append_drop, List.cons_append]
        obtain ⟨-, same⟩ := own.unique torn whole
        dsimp only
        rw [same]
        rfl

/-- **Bytes are read in one way,** by looking at the front of what is left. -/
theorem readsAs_iff {bytes : Bytes} {cs : List Char} :
    ReadsAs bytes cs ↔ decodeLossyChars bytes = cs := by
  constructor
  · intro reads
    induction reads with
    | nil => rw [decodeLossyChars]
    | char c _ ih => rw [decodeLossyChars_encodeChar, ih]
    | torn isTorn _ ih => rw [decodeLossyChars_torn isTorn, ih]
  · rintro rfl
    induction bytes using decodeLossyChars.induct with
    | case1 =>
      rw [decodeLossyChars]
      exact .nil
    | case2 lead rest ih =>
      have parts : lead :: rest = lead :: rest.take (front lead rest).2 ++
          rest.drop (front lead rest).2 := by
        rw [List.cons_append, List.take_append_drop]
      rw [decodeLossyChars]
      nth_rewrite 1 [parts]
      cases found : front lead rest with
      | mk c count =>
        rw [found] at ih
        cases c with
        | some c =>
          rw [← encodeChar_of_front found]
          exact .char c ih
        | none => exact .torn (torn_of_front found) ih

/-- What bytes are decoded to, if need be with replacement characters. -/
theorem readsAs_decodeLossy (bytes : Bytes) : ReadsAs bytes (decodeLossy bytes).toList := by
  rw [readsAs_iff, decodeLossy, String.toList_ofList]

/-- **The bytes of a text** are read as the text. -/
theorem decodeLossy_encode (s : String) : decodeLossy (encode s) = s := by
  have chars : ∀ cs : List Char, ReadsAs (cs.flatMap String.utf8EncodeChar) cs := by
    intro cs
    induction cs with
    | nil => exact .nil
    | cons c cs ih =>
      rw [List.flatMap_cons]
      exact .char c ih
  rw [decodeLossy, encode, readsAs_iff.1 (chars s.toList), String.ofList_toList]

end ShaderChain.Text
