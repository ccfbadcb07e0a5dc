import ShaderChain.Number.Integer

/-!
# Spans of time

A span is a count of nanoseconds. Its text uses the largest of the units
second, millisecond, microsecond and nanosecond that fits into it, with the
exact fraction and no zeros at its end.
-/

set_option autoImplicit false

namespace ShaderChain

/-- A span of time. -/
structure Duration where
  nanoseconds : Nat
deriving DecidableEq, Repr

namespace Duration

/-- A whole number of seconds. -/
def ofSeconds (n : Nat) : Duration := ⟨n * 1000000000⟩

/-- A whole number of milliseconds. -/
def ofMilliseconds (n : Nat) : Duration := ⟨n * 1000000⟩

/-- The digits of `rest` as a fraction with `places` places, zeros at the end left out. -/
def fraction (places rest : Nat) : List Char :=
  let digits := Nat.toDigits 10 rest
  let padded := List.replicate (places - digits.length) '0' ++ digits
  (padded.reverse.dropWhile (· == '0')).reverse

/-- The span counted in units of `10 ^ places` nanoseconds. -/
def inUnits (d : Duration) (places : Nat) (unit : String) : String :=
  let size := Nat.pow 10 places
  let part := if d.nanoseconds % size = 0 then [] else fraction places (d.nanoseconds % size)
  Integer.naturalText (d.nanoseconds / size) ++
    (if part.isEmpty then "" else "." ++ String.ofList part) ++ unit

/-- The text of the span. -/
def text (d : Duration) : String :=
  if 1000000000 ≤ d.nanoseconds then d.inUnits 9 "s"
  else if 1000000 ≤ d.nanoseconds then d.inUnits 6 "ms"
  else if 1000 ≤ d.nanoseconds then d.inUnits 3 "µs"
  else d.inUnits 0 "ns"

end Duration

end ShaderChain
