import ShaderChain.Process
import ShaderChain.Proofs.Text.Blank

/-!
# What processes tell

Everything that a process printed is told in one text: its output first, then its
errors, each without the blanks at its end and on lines of its own. A part of which
nothing is left is left out (`Tells`).
-/

set_option autoImplicit false

namespace ShaderChain

/-- The text that tells what a process printed as its output and as errors. -/
inductive Tells (output errors : List Char) : String → Prop where
  | mk {front back : List Char} (outputEnds : Text.StrippedEnd output front)
      (errorsEnd : Text.StrippedEnd errors back) :
      Tells output errors
        ("\n".intercalate (([front, back].filter fun part => part ≠ []).map String.ofList))

/-- **The diagnostics of a process** tell what it printed. -/
theorem ProcessOutput.tells_diagnostics (p : ProcessOutput) :
    Tells p.output.toList p.errors.toList p.diagnostics := by
  have outputEnds := Text.strippedEnd_iff.2 (Eq.refl (Text.stripEnd p.output.toList))
  have errorsEnd := Text.strippedEnd_iff.2 (Eq.refl (Text.stripEnd p.errors.toList))
  have tells := Tells.mk outputEnds errorsEnd
  rw [diagnostics, Text.trimEnd, Text.trimEnd]
  generalize Text.stripEnd p.output.toList = front at tells ⊢
  generalize Text.stripEnd p.errors.toList = back at tells ⊢
  by_cases noErrors : back = []
  · subst noErrors
    by_cases noOutput : front = []
    · subst noOutput
      exact tells
    · simpa [noOutput] using tells
  · by_cases noOutput : front = []
    · subst noOutput
      simpa [noErrors] using tells
    · simpa [noErrors, noOutput] using tells

end ShaderChain
