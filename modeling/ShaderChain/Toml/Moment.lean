import ShaderChain.Document.Basic
import ShaderChain.Toml.Lexical

/-!
# Dates and times of TOML

A date, a time of day, or both, then perhaps with an offset. In a document a
moment is a table with one entry, whose text is the moment in its usual form:
a `T` between date and time, up to nine places of a second, and `Z` for no
offset.
-/

set_option autoImplicit false

namespace ShaderChain.Toml

/-- The name of the entry that holds the text of a moment. -/
def momentName : String := "$__toml_private_datetime"

/-- The document of a moment. -/
def moment (text : List Char) : Document := .table [(momentName, .text (String.ofList text))]

/-- Exactly `count` decimal digits at the front. -/
def exactDigits? (count : Nat) (cs : List Char) : Option (Nat × List Char) :=
  if (cs.take count).length = count && (cs.take count).all Char.isDigit then
    some ((cs.take count).foldl (fun n c => n * 10 + (c.toNat - 48)) 0, cs.drop count)
  else none

/-- Two digits for a number between two bounds. -/
def twoDigits? (low high : Nat) (cs : List Char) : Option (Nat × List Char) :=
  match exactDigits? 2 cs with
  | some (n, rest) => if low ≤ n && n ≤ high then some (n, rest) else none
  | none => none

/-- The number of days of a month. -/
def daysIn (year month : Nat) : Nat :=
  if month = 2 then
    if year % 4 = 0 && (year % 100 ≠ 0 || year % 400 = 0) then 29 else 28
  else if month = 4 || month = 6 || month = 9 || month = 11 then 30
  else 31

/-- The text of a date at the front. -/
def date? (cs : List Char) : Option (List Char × List Char) :=
  match exactDigits? 4 cs with
  | some (year, '-' :: rest) =>
    match twoDigits? 1 12 rest with
    | some (month, '-' :: rest) =>
      (twoDigits? 1 (daysIn year month) rest).map fun found => (cs.take 10, found.2)
    | _ => none
  | _ => none

/-- The text of a fraction of a second at the front: at most nine places, no zeros at the end. -/
def fractionText (cs : List Char) : Option (List Char × List Char) :=
  match cs with
  | '.' :: rest =>
    let digits := rest.takeWhile Char.isDigit
    let kept := ((digits.take 9).reverse.dropWhile (· == '0')).reverse
    if digits.isEmpty then none
    else some (if kept.isEmpty then [] else '.' :: kept, rest.drop digits.length)
  | _ => some ([], cs)

/-- The text of a time of day at the front. -/
def time? (cs : List Char) : Option (List Char × List Char) :=
  match twoDigits? 0 23 cs with
  | some (_, ':' :: rest) =>
    match twoDigits? 0 59 rest with
    | some (_, ':' :: rest) =>
      match twoDigits? 0 60 rest with
      | some (_, rest) =>
        (fractionText rest).map fun found => (cs.take 8 ++ found.1, found.2)
      | none => none
    | _ => none
  | _ => none

/-- The text of an offset at the front. -/
def offset? (cs : List Char) : Option (List Char × List Char) :=
  match cs with
  | c :: rest =>
    if c = 'Z' || c = 'z' then some (['Z'], rest)
    else if c = '+' || c = '-' then
      match twoDigits? 0 23 rest with
      | some (_, ':' :: more) => (twoDigits? 0 59 more).map fun found => (cs.take 6, found.2)
      | _ => none
    else none
  | [] => none

/-- Whether a time of day may be due after a date: its separator, and for a space also its first
digit. -/
def separatesTime : List Char → Bool
  | c :: rest => c == 'T' || c == 't' || (c == ' ' && (rest.head?.map Char.isDigit).getD false)
  | [] => false

/-- A date or time at the front. -/
def moment? (cs : List Char) : Option (Document × List Char) :=
  match date? cs with
  | some (date, rest) =>
    if separatesTime rest then
      match time? (rest.drop 1) with
      | some (time, after) =>
        match offset? after with
        | some (offset, more) => some (moment (date ++ 'T' :: (time ++ offset)), more)
        | none => some (moment (date ++ 'T' :: time), after)
      | none => none
    else some (moment date, rest)
  | none => (time? cs).map fun found => (moment found.1, found.2)

end ShaderChain.Toml
