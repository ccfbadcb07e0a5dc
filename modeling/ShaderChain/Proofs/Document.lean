import ShaderChain.Document.Record
import ShaderChain.Proofs.Number.Decimal
import ShaderChain.Proofs.Table

/-!
# Parts of documents read back

Where a reader gives back every value that is written for it, so do the readers
of lists, of tables and of values that may be missing. A table may be written in
any order.
-/

set_option autoImplicit false

namespace ShaderChain.Document

/-! ## Integers -/

theorem uint64?_toNat (value : UInt64) : uint64? (.int value.toNat) = some value := by
  have within := Integer.within_eq_true (Int.natCast_nonneg value.toNat)
    (Integer.toNat_le_greatestUnsigned value)
  rw [uint64?, intWithin?, if_pos within, Option.map_some, Int.toNat_natCast, UInt64.ofNat_toNat]

theorem int64?_toInt (value : Int64) : int64? (.int value.toInt) = some value := by
  have within := Integer.within_eq_true (Integer.least_le_toInt value)
    (Integer.toInt_le_greatest value)
  rw [int64?, intWithin?, if_pos within, Option.map_some, Int64.ofInt_toInt]

/-! ## Parts -/

section

variable {α : Type} {write : α → Document} {read : Document → Option α}
  (reads : ∀ a, read (write a) = some a)

include reads in
theorem list?_map (values : List α) : list? read (.list (values.map write)) = some values := by
  rw [list?]
  induction values with
  | nil => rfl
  | cons a values ih =>
    rw [List.map_cons, readAll?, reads]
    dsimp only
    rw [ih]
    rfl

/-- What is read of entries is what is read of their values. -/
theorem readEntries?_image {β : Type} {read : Document → Option β} {image : α → β}
    (reads : ∀ a, read (write a) = some (image a)) (entries : List (String × α)) :
    readEntries? read (entries.map fun entry => (entry.1, write entry.2)) =
      some (entries.map fun entry => (entry.1, image entry.2)) := by
  induction entries with
  | nil => rfl
  | cons entry entries ih =>
    rw [List.map_cons, readEntries?, reads]
    dsimp only
    rw [ih]
    rfl

include reads in
theorem readEntries?_map (entries : List (String × α)) :
    readEntries? read (entries.map fun entry => (entry.1, write entry.2)) = some entries := by
  rw [readEntries?_image reads, List.map_id']

variable (write) in
include reads in
/-- The entries of a table read back in any order. -/
theorem table?_of_perm {t : Table α} {entries : List (String × α)} (same : entries.Perm t.entries) :
    table? read (.table (entries.map fun entry => (entry.1, write entry.2))) = some t := by
  rw [table?, readEntries?_map reads, Option.map_some, Table.ofList_eq_of_perm same]

end

section

variable {α : Type} {write : α → Document} {read : Document → Option α}

@[simp]
theorem orDefault?_some (default : α) (d : Document) : orDefault? default read (.some d) = read d :=
  rfl

theorem optional?_eq_some {d : Document} {a : α} (reads : read d = some a) (some : d ≠ .null) :
    optional? read d = .some (.some a) := by
  rw [optional?]
  · rw [reads]
    rfl
  · exact some

/-- A value that may be missing, if `null` stands for a missing one. -/
theorem optional?_getD (reads : ∀ a, read (write a) = some a) (some : ∀ a, write a ≠ .null)
    (value : Option α) : optional? read ((value.map write).getD .null) = .some value := by
  cases value with
  | none => rfl
  | some a => exact optional?_eq_some (reads a) (some a)

/-- A value that may be missing, if its field is left out. -/
theorem orDefault?_optional {value : Option α} (reads : ∀ a ∈ value, read (write a) = some a)
    (some : ∀ a ∈ value, write a ≠ .null) :
    orDefault? none (optional? read) (value.map write) = .some value := by
  cases value with
  | none => rfl
  | some a => exact optional?_eq_some (reads a rfl) (some a rfl)

end

end ShaderChain.Document
