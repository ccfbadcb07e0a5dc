/-!
# Tables

A table assigns values to finitely many names. Its entries are kept in strictly
increasing order of their names (code point by code point, which is also the
order of their UTF-8 bytes), so two tables with the same entries are equal and
listing a table needs no sorting.

The laws say what a look-up answers after `insert`: the value put under the name
(`get?_insert_self`), and for other names what it answered before
(`get?_insert_of_ne`).
-/

set_option autoImplicit false

namespace ShaderChain

/-- Entries with strictly increasing names. -/
structure Table (α : Type) where
  entries : List (String × α)
  increasing : entries.Pairwise fun a b => a.1 < b.1
deriving DecidableEq

namespace Table

variable {α β : Type}

/-- The value under `name` in a list of entries. -/
def lookup? (name : String) : List (String × α) → Option α
  | [] => none
  | entry :: rest => if entry.1 = name then some entry.2 else lookup? name rest

/-- The entries with `value` put under `name`, before the first greater name and in place of an
equal one. -/
def insertEntry (name : String) (value : α) : List (String × α) → List (String × α)
  | [] => [(name, value)]
  | entry :: rest =>
    if name < entry.1 then (name, value) :: entry :: rest
    else if name = entry.1 then (name, value) :: rest
    else entry :: insertEntry name value rest

theorem mem_insertEntry {name : String} {value : α} {entry : String × α}
    {entries : List (String × α)} (member : entry ∈ insertEntry name value entries) :
    entry = (name, value) ∨ entry ∈ entries := by
  induction entries with
  | nil => simpa [insertEntry] using member
  | cons first rest ih =>
    simp only [insertEntry] at member
    split at member
    · simpa using member
    · split at member
      · rcases List.mem_cons.1 member with same | later
        · exact .inl same
        · exact .inr (List.mem_cons_of_mem _ later)
      · rcases List.mem_cons.1 member with same | later
        · exact .inr (same ▸ List.mem_cons_self)
        · exact (ih later).imp id (List.mem_cons_of_mem _)

theorem lt_of_not_lt_of_ne {a b : String} (notLess : ¬ a < b) (distinct : ¬ a = b) : b < a :=
  Std.not_le.1 fun le => notLess (Std.lt_of_le_of_ne le distinct)

/-- Inserting an entry keeps the names strictly increasing. -/
theorem pairwise_insertEntry (name : String) (value : α) {entries : List (String × α)}
    (increasing : entries.Pairwise fun a b => a.1 < b.1) :
    (insertEntry name value entries).Pairwise fun a b => a.1 < b.1 := by
  induction entries with
  | nil => simp [insertEntry]
  | cons first rest ih =>
    obtain ⟨above, tail⟩ := List.pairwise_cons.1 increasing
    simp only [insertEntry]
    split
    · rename_i less
      refine List.pairwise_cons.2 ⟨fun entry member => ?_, increasing⟩
      rcases List.mem_cons.1 member with same | later
      · exact same ▸ less
      · exact Std.lt_trans less (above entry later)
    · split
      · rename_i same
        exact List.pairwise_cons.2 ⟨fun entry member => same ▸ above entry member, tail⟩
      · rename_i notLess distinct
        refine List.pairwise_cons.2 ⟨fun entry member => ?_, ih tail⟩
        rcases mem_insertEntry member with same | later
        · exact same ▸ lt_of_not_lt_of_ne notLess distinct
        · exact above entry later

/-- The table without entries. -/
def empty : Table α := ⟨[], List.Pairwise.nil⟩

instance : Inhabited (Table α) := ⟨empty⟩

/-- The table with `value` under `name`, whatever was there before. -/
def insert (t : Table α) (name : String) (value : α) : Table α :=
  ⟨insertEntry name value t.entries, pairwise_insertEntry name value t.increasing⟩

/-- The value under `name`. -/
def get? (t : Table α) (name : String) : Option α := lookup? name t.entries

/-- Whether there is a value under `name`. -/
def contains (t : Table α) (name : String) : Bool := (t.get? name).isSome

/-- The names, in increasing order. -/
def names (t : Table α) : List String := t.entries.map Prod.fst

/-- The values, in the order of their names. -/
def values (t : Table α) : List α := t.entries.map Prod.snd

/-- The number of entries. -/
def size (t : Table α) : Nat := t.entries.length

/-- The table of a list of entries; of two with one name the later counts. -/
def ofList (entries : List (String × α)) : Table α :=
  entries.foldl (fun t entry => t.insert entry.1 entry.2) empty

/-- The table with every value replaced by its image. -/
def map (f : α → β) (t : Table α) : Table β where
  entries := t.entries.map fun entry => (entry.1, f entry.2)
  increasing := List.pairwise_map.2 t.increasing

theorem lookup?_insertEntry_self (name : String) (value : α) (entries : List (String × α)) :
    lookup? name (insertEntry name value entries) = some value := by
  induction entries with
  | nil => simp [insertEntry, lookup?]
  | cons first rest ih =>
    simp only [insertEntry]
    split
    · simp [lookup?]
    · split
      · simp [lookup?]
      · rename_i distinct
        simp [lookup?, Ne.symm distinct, ih]

theorem lookup?_insertEntry_of_ne {name other : String} (value : α)
    (entries : List (String × α)) (distinct : name ≠ other) :
    lookup? other (insertEntry name value entries) = lookup? other entries := by
  induction entries with
  | nil => simp [insertEntry, lookup?, distinct]
  | cons first rest ih =>
    simp only [insertEntry]
    split
    · simp [lookup?, distinct]
    · split
      · rename_i same
        simp [lookup?, distinct, ← same]
      · simp [lookup?, ih]

/-- A look-up finds what was put under the name last. -/
@[simp] theorem get?_insert_self (t : Table α) (name : String) (value : α) :
    (t.insert name value).get? name = some value :=
  lookup?_insertEntry_self name value t.entries

/-- Putting a value under one name changes no other. -/
theorem get?_insert_of_ne (t : Table α) {name other : String} (value : α)
    (distinct : name ≠ other) : (t.insert name value).get? other = t.get? other :=
  lookup?_insertEntry_of_ne value t.entries distinct

theorem lookup?_map (f : α → β) (name : String) (entries : List (String × α)) :
    lookup? name (entries.map fun entry => (entry.1, f entry.2)) =
      (lookup? name entries).map f := by
  induction entries with
  | nil => rfl
  | cons entry rest ih =>
    rw [List.map_cons, lookup?, lookup?]
    split
    · rfl
    · exact ih

/-- A look-up among the images finds the image. -/
theorem get?_map (f : α → β) (t : Table α) (name : String) :
    (t.map f).get? name = (t.get? name).map f :=
  lookup?_map f name t.entries

@[simp] theorem get?_empty (name : String) : (empty : Table α).get? name = none := rfl

end Table

end ShaderChain
