import ShaderChain.Table

/-!
# Tables from lists

A table is determined by its entries in any order (`Table.eq_of_perm`), so the
table of a list of entries with distinct names does not depend on the order of
the list (`Table.ofList_eq_of_perm`).
-/

set_option autoImplicit false

namespace ShaderChain.Table

variable {α : Type}

/-- Inserting an entry with a new name adds it. -/
theorem insertEntry_perm {name : String} (value : α) {entries : List (String × α)}
    (fresh : name ∉ entries.map Prod.fst) :
    (insertEntry name value entries).Perm ((name, value) :: entries) := by
  induction entries with
  | nil => exact .refl _
  | cons entry rest ih =>
    obtain ⟨other, later⟩ := not_or.1 (fresh ∘ List.mem_cons.2)
    rw [insertEntry]
    split
    · exact .refl _
    · exact ((ih later).cons entry).trans (.swap ..)

theorem foldl_insert_perm {entries : List (String × α)} {t : Table α}
    (distinct : (entries.map Prod.fst ++ t.names).Nodup) :
    (entries.foldl (fun t entry => t.insert entry.1 entry.2) t).entries.Perm
      (entries ++ t.entries) := by
  induction entries generalizing t with
  | nil => exact .refl _
  | cons entry rest ih =>
    have fresh : entry.1 ∉ t.entries.map Prod.fst := fun member =>
      (List.nodup_cons.1 distinct).1 (List.mem_append_right _ member)
    have inserted : (t.insert entry.1 entry.2).entries.Perm (entry :: t.entries) :=
      insertEntry_perm entry.2 fresh
    have names : (rest.map Prod.fst ++ (t.insert entry.1 entry.2).names).Perm
        ((entry :: rest).map Prod.fst ++ t.names) :=
      ((inserted.map Prod.fst).append_left _).trans List.perm_middle
    exact (ih (names.nodup_iff.2 distinct)).trans
      ((inserted.append_left _).trans List.perm_middle)

/-- The table of entries with distinct names has these entries. -/
theorem ofList_perm {entries : List (String × α)} (distinct : (entries.map Prod.fst).Nodup) :
    (ofList entries).entries.Perm entries := by
  have new : (entries.map Prod.fst ++ (empty : Table α).names).Nodup := by
    rw [names, empty, List.map_nil, List.append_nil]
    exact distinct
  have all := foldl_insert_perm new
  rw [empty, List.append_nil] at all
  exact all

/-- Tables with the same entries are equal. -/
theorem eq_of_perm {t u : Table α} (same : t.entries.Perm u.entries) : t = u := by
  have entries : t.entries = u.entries := by
    refine same.eq_of_pairwise ?_ t.increasing u.increasing
    intro a b _ _ less greater
    exact absurd (Std.lt_trans less greater) (Std.lt_irrefl)
  cases t
  cases u
  cases entries
  rfl

/-- Entries with two new names may be inserted in either order. -/
theorem insert_comm {t : Table α} {first second : String} (firstValue secondValue : α)
    (firstFresh : first ∉ t.names) (secondFresh : second ∉ t.names) (distinct : first ≠ second) :
    (t.insert first firstValue).insert second secondValue =
      (t.insert second secondValue).insert first firstValue := by
  have inserted {a b : String} (u v : α) (aFresh : a ∉ t.names) (bFresh : b ∉ t.names)
      (other : a ≠ b) :
      ((t.insert a u).insert b v).entries.Perm ((b, v) :: (a, u) :: t.entries) := by
    have once : (t.insert a u).entries.Perm ((a, u) :: t.entries) := insertEntry_perm u aFresh
    have still : b ∉ (t.insert a u).entries.map Prod.fst := by
      rw [(once.map Prod.fst).mem_iff, List.map_cons, List.mem_cons, not_or]
      exact ⟨Ne.symm other, bFresh⟩
    exact (insertEntry_perm v still).trans (once.cons _)
  apply eq_of_perm
  exact (inserted _ _ firstFresh secondFresh distinct).trans
    ((List.Perm.swap ..).trans (inserted _ _ secondFresh firstFresh (Ne.symm distinct)).symm)

/-- The names of a table are increasing. -/
theorem pairwise_names (t : Table α) : t.names.Pairwise (· < ·) :=
  List.pairwise_map.2 t.increasing

theorem nodup_names (t : Table α) : t.names.Nodup := by
  refine (t.pairwise_names.imp ?_ : t.names.Pairwise (· ≠ ·))
  intro a b less same
  exact Std.lt_irrefl (same ▸ less)

/-- The table of its own entries in any order is the table itself. -/
theorem ofList_eq_of_perm {t : Table α} {entries : List (String × α)}
    (same : entries.Perm t.entries) : ofList entries = t := by
  have distinct : (entries.map Prod.fst).Nodup := (same.map Prod.fst).nodup_iff.2 t.nodup_names
  exact eq_of_perm ((ofList_perm distinct).trans same)

theorem lookup?_of_mem {name : String} {value : α} {entries : List (String × α)}
    (increasing : entries.Pairwise fun a b => a.1 < b.1) (member : (name, value) ∈ entries) :
    lookup? name entries = some value := by
  induction entries with
  | nil => cases member
  | cons entry rest ih =>
    obtain ⟨above, increasing⟩ := List.pairwise_cons.1 increasing
    rw [lookup?]
    rcases List.mem_cons.1 member with rfl | later
    · exact if_pos rfl
    · rw [if_neg fun same => Std.lt_irrefl (same ▸ above _ later)]
      exact ih increasing later

/-- What is listed is found. -/
theorem get?_of_mem {t : Table α} {name : String} {value : α}
    (member : (name, value) ∈ t.entries) : t.get? name = some value :=
  lookup?_of_mem t.increasing member

theorem isSome_lookup? {name : String} {entries : List (String × α)} :
    (lookup? name entries).isSome = true ↔ name ∈ entries.map Prod.fst := by
  induction entries with
  | nil => simp [lookup?]
  | cons entry rest ih =>
    rw [lookup?, List.map_cons, List.mem_cons]
    split
    case isTrue same => simp [same]
    case isFalse other => simp [ih, Ne.symm other]

theorem length_insertEntry {name : String} (value : α) {entries : List (String × α)}
    (increasing : entries.Pairwise fun a b => a.1 < b.1) :
    (insertEntry name value entries).length =
      if (lookup? name entries).isSome then entries.length else entries.length + 1 := by
  induction entries with
  | nil => rfl
  | cons entry rest ih =>
    obtain ⟨above, increasing⟩ := List.pairwise_cons.1 increasing
    rw [insertEntry, lookup?]
    split
    case isTrue less =>
      have absent : name ∉ rest.map Prod.fst := by
        intro member
        obtain ⟨later, laterMember, same⟩ := List.mem_map.1 member
        exact Std.lt_irrefl (same ▸ Std.lt_trans less (above later laterMember))
      have other : entry.1 ≠ name := fun same => Std.lt_irrefl (same ▸ less)
      have none : lookup? name rest = none := by
        rw [← Option.not_isSome_iff_eq_none, isSome_lookup?]
        exact absent
      rw [if_neg other, none]
      rfl
    case isFalse =>
      split
      case isTrue same =>
        rw [if_pos same.symm]
        rfl
      case isFalse other =>
        rw [if_neg (Ne.symm other), List.length_cons, ih increasing]
        split
        · rfl
        · rfl

/-- Inserting under a new name makes a table larger by one. -/
theorem size_insert (t : Table α) (name : String) (value : α) :
    (t.insert name value).size = if (t.get? name).isSome then t.size else t.size + 1 :=
  length_insertEntry value t.increasing

/-- The names are those with a value. -/
theorem mem_names_iff {t : Table α} {name : String} :
    name ∈ t.names ↔ (t.get? name).isSome = true :=
  isSome_lookup?.symm

theorem mem_of_lookup? {name : String} {value : α} {entries : List (String × α)}
    (found : lookup? name entries = some value) : (name, value) ∈ entries := by
  induction entries with
  | nil => cases found
  | cons entry rest ih =>
    rw [lookup?] at found
    split at found
    case isTrue same =>
      cases same
      cases found
      exact List.mem_cons_self
    case isFalse => exact List.mem_cons_of_mem _ (ih found)

/-- What is found is listed. -/
theorem mem_entries_iff {t : Table α} {name : String} {value : α} :
    (name, value) ∈ t.entries ↔ t.get? name = some value :=
  ⟨get?_of_mem, mem_of_lookup?⟩

/-- **A table is determined by what is found in it.** -/
theorem ext_get? {t u : Table α} (same : ∀ name, t.get? name = u.get? name) : t = u := by
  have distinct (t : Table α) : t.entries.Nodup :=
    (List.pairwise_map.1 t.nodup_names).imp fun other same => other (congrArg Prod.fst same)
  apply eq_of_perm
  refine (List.perm_ext_iff_of_nodup (distinct t) (distinct u)).2 fun entry => ?_
  obtain ⟨name, value⟩ := entry
  rw [mem_entries_iff, mem_entries_iff, same]

/-- Of entries that are put into a table one after the other, the last of a name is found; names
without one are as before. -/
theorem get?_foldl_insert (entries : List (String × α)) (t : Table α) (name : String) :
    (entries.foldl (fun t entry => t.insert entry.1 entry.2) t).get? name =
      (entries.reverse.lookup name).or (t.get? name) := by
  induction entries generalizing t with
  | nil => rfl
  | cons entry rest ih =>
    rw [List.foldl_cons, ih, List.reverse_cons, List.lookup_append, Option.or_assoc]
    congr 1
    rw [List.lookup_cons]
    by_cases same : name = entry.1
    · rw [same, get?_insert_self, beq_self_eq_true]
      rfl
    · rw [get?_insert_of_ne _ _ (Ne.symm same), beq_eq_false_iff_ne.2 same]
      rfl

end ShaderChain.Table
