import ShaderChain.Proofs.Json.Scalar

/-!
# Documents in JSON read back

A document of truth values, integers of 64 bits, texts, lists and tables that
are not nested too deep (`Written`) reads back from its text in every layout
(`read?_render`). The names of a table may repeat.

A value is read whatever follows it, unless that continues a number. The items of
a list and the entries of a table are read one after the other, each up to its
comma or the closing bracket (`items?_renderItems`, `entries?_renderEntries`).
-/

set_option autoImplicit false

namespace ShaderChain.Json

/-- Whether a document reads back, with lists and tables at most `depth` deep. -/
inductive Written : Nat → Document → Prop where
  | null {depth : Nat} : Written depth .null
  | bool {depth : Nat} (value : Bool) : Written depth (.bool value)
  | int {depth : Nat} {value : Int} (low : -(signedLimit : Int) ≤ value)
      (high : value < unsignedLimit) : Written depth (.int value)
  | text {depth : Nat} (value : String) : Written depth (.text value)
  | list {depth : Nat} {items : List Document} (inside : ∀ item ∈ items, Written depth item) :
      Written (depth + 1) (.list items)
  | table {depth : Nat} {entries : List (String × Document)}
      (inside : ∀ entry ∈ entries, Written depth entry.2) : Written (depth + 1) (.table entries)

theorem Written.mono {depth deeper : Nat} {d : Document} (written : Written depth d)
    (le : depth ≤ deeper) : Written deeper d := by
  induction written generalizing deeper with
  | null => exact .null
  | bool value => exact .bool value
  | int low high => exact .int low high
  | text value => exact .text value
  | list _ ih =>
    obtain ⟨deeper, rfl⟩ : ∃ less, deeper = less + 1 := ⟨deeper - 1, by omega⟩
    exact .list fun item member => ih item member (Nat.le_of_succ_le_succ le)
  | table _ ih =>
    obtain ⟨deeper, rfl⟩ : ∃ less, deeper = less + 1 := ⟨deeper - 1, by omega⟩
    exact .table fun entry member => ih entry member (Nat.le_of_succ_le_succ le)

/-! ## White space -/

/-- What the layout puts between the parts of a text. -/
def gap (layout : Option Nat) : List Char := ((layout.map newline).getD "").toList

theorem skipSpace_append {blanks : List Char}
    (are : ∀ c ∈ blanks, (c == ' ' || c == '\n' || c == '\r' || c == '\t') = true)
    (cs : List Char) : skipSpace (blanks ++ cs) = skipSpace cs :=
  List.dropWhile_append_of_pos are

theorem skipSpace_gap (layout : Option Nat) (cs : List Char) :
    skipSpace (gap layout ++ cs) = skipSpace cs := by
  cases layout with
  | none => rfl
  | some level =>
    apply skipSpace_append
    intro c member
    have text : gap (some level) = '\n' :: List.replicate (2 * level) ' ' := by
      simp [gap, newline]
    rw [text] at member
    rcases List.mem_cons.1 member with rfl | blank
    · rfl
    · rw [List.eq_of_mem_replicate blank]
      rfl

theorem endsNumber_gap (layout : Option Nat) {rest : List Char} (ends : EndsNumber rest) :
    EndsNumber (gap layout ++ rest) := by
  cases layout with
  | none => exact ends
  | some level =>
    have text : gap (some level) = '\n' :: List.replicate (2 * level) ' ' := by
      simp [gap, newline]
    rw [text, List.cons_append]
    exact endsNumber_cons _ (by decide)

/-- White space in front of a value does not count. -/
theorem value?_congr {fuel depth : Nat} {cs others : List Char}
    (same : skipSpace cs = skipSpace others) :
    value? fuel depth cs = value? fuel depth others := by
  cases fuel with
  | zero => rfl
  | succ fuel => rw [value?, value?, same]

/-- A character that a value can begin with. -/
def BeginsValue (c : Char) : Prop :=
  c ∈ ['n', 't', 'f', '"', '[', '{', '-'] ∨ c.isDigit = true

instance : DecidablePred BeginsValue := fun c =>
  inferInstanceAs (Decidable (c ∈ ['n', 't', 'f', '"', '[', '{', '-'] ∨ c.isDigit = true))

namespace BeginsValue

variable {c : Char}

theorem ne (begins : BeginsValue c) {other : Char} (not : ¬ BeginsValue other) : c ≠ other := by
  rintro rfl
  exact not begins

theorem skipSpace_eq (begins : BeginsValue c) (rest : List Char) :
    skipSpace (c :: rest) = c :: rest := by
  apply List.dropWhile_cons_of_neg
  rw [beq_false_of_ne (begins.ne (by decide)), beq_false_of_ne (begins.ne (by decide)),
    beq_false_of_ne (begins.ne (by decide)), beq_false_of_ne (begins.ne (by decide))]
  exact Bool.false_ne_true

end BeginsValue

/-! ## How values begin -/

theorem toList_renderItems_cons (layout : Option Nat) (item : Document) (rest : List Document) :
    (renderItems layout (item :: rest)).toList =
      gap (layout.map (· + 1)) ++ (render (layout.map (· + 1)) item).toList ++
        ((if rest.isEmpty then [] else [',']) ++ (renderItems layout rest).toList) := by
  rw [renderItems, gap]
  cases rest with
  | nil => simp
  | cons => simp

theorem toList_renderItems_nil (layout : Option Nat) :
    (renderItems layout []).toList = gap layout ++ [']'] := by
  rw [renderItems, String.toList_append]
  rfl

theorem toList_renderEntries_cons (layout : Option Nat) (entry : String × Document)
    (rest : List (String × Document)) :
    (renderEntries layout (entry :: rest)).toList =
      gap (layout.map (· + 1)) ++ (quote entry.1).toList ++
        (':' :: ((if layout.isSome then [' '] else []) ++
          (render (layout.map (· + 1)) entry.2).toList ++
            ((if rest.isEmpty then [] else [',']) ++ (renderEntries layout rest).toList))) := by
  rw [renderEntries, gap]
  cases rest with
  | nil => cases layout with
    | none => simp
    | some level => simp
  | cons => cases layout with
    | none => simp
    | some level => simp

theorem toList_renderEntries_nil (layout : Option Nat) :
    (renderEntries layout []).toList = gap layout ++ ['}'] := by
  rw [renderEntries, String.toList_append]
  rfl

theorem render_head {depth : Nat} {d : Document} (written : Written depth d)
    (layout : Option Nat) :
    ∃ c rest, (render layout d).toList = c :: rest ∧ BeginsValue c := by
  cases written with
  | null => exact ⟨'n', ['u', 'l', 'l'], by rw [render]; rfl, by decide⟩
  | bool value =>
    cases value with
    | true => exact ⟨'t', ['r', 'u', 'e'], by rw [render]; rfl, by decide⟩
    | false => exact ⟨'f', ['a', 'l', 's', 'e'], by rw [render]; rfl, by decide⟩
  | @int _ value =>
    obtain ⟨c, rest, text, begins⟩ := Integer.text_head value
    refine ⟨c, rest, text, ?_⟩
    rcases begins with rfl | digit
    · decide
    · exact .inr digit
  | text value => exact ⟨'"', _, toList_quote value, by decide⟩
  | @list _ items =>
    cases items with
    | nil => exact ⟨'[', [']'], by rw [render]; rfl, by decide⟩
    | cons item items => exact ⟨'[', _, by rw [render, String.toList_append]; rfl, by decide⟩
  | @table _ entries =>
    cases entries with
    | nil => exact ⟨'{', ['}'], by rw [render]; rfl, by decide⟩
    | cons entry entries => exact ⟨'{', _, by rw [render, String.toList_append]; rfl, by decide⟩

/-! ## Lists and tables -/

/-- **The items of a list** are read one after the other. -/
theorem items?_renderItems {value : Reader Document} {layout : Option Nat} {items : List Document}
    (some : items ≠ [])
    (reads : ∀ item ∈ items, ∀ rest, EndsNumber rest →
      value (gap (layout.map (· + 1)) ++ (render (layout.map (· + 1)) item).toList ++ rest) =
        .some (item, rest))
    {fuel : Nat} (enough : items.length ≤ fuel) (rest : List Char) :
    items? value fuel ((renderItems layout items).toList ++ rest) = .some (items, rest) := by
  induction items generalizing fuel with
  | nil => exact absurd rfl some
  | cons item others ih =>
    rw [List.length_cons] at enough
    obtain ⟨fuel, rfl⟩ : ∃ less, fuel = less + 1 := ⟨fuel - 1, by omega⟩
    obtain ⟨here, later⟩ := List.forall_mem_cons.1 reads
    rw [toList_renderItems_cons, List.append_assoc, items?]
    cases others with
    | nil =>
      have ends : EndsNumber (gap layout ++ ']' :: rest) :=
        endsNumber_gap layout (endsNumber_cons rest (by decide))
      have after : (if ([] : List Document).isEmpty then [] else [',']) ++
          (renderItems layout []).toList ++ rest = gap layout ++ ']' :: rest := by
        rw [toList_renderItems_nil]
        simp
      rw [after, here _ ends]
      dsimp only
      rw [skipSpace_gap]
      rfl
    | cons next others =>
      have after : (if (next :: others).isEmpty then [] else [',']) ++
          (renderItems layout (next :: others)).toList ++ rest =
            ',' :: ((renderItems layout (next :: others)).toList ++ rest) := rfl
      rw [after, here _ (endsNumber_cons _ (by decide))]
      change (items? value fuel _).map _ = _
      rw [ih (List.cons_ne_nil next others) later (by omega)]
      rfl

section

variable {value : Reader Document} {name : String} {item : Document} {cs body after more : List Char}
  (front : skipSpace cs = '"' :: (name.toList.flatMap escapeChar ++ '"' :: ':' :: body))
  (read : value body = some (item, after))

include front read in
/-- An entry that is followed by a comma. -/
theorem entries?_of_comma (comma : skipSpace after = ',' :: more) (fuel : Nat) :
    entries? value (fuel + 1) cs =
      (entries? value fuel more).map fun found => ((some name, item) :: found.1, found.2) := by
  have colon : skipSpace (':' :: body) = ':' :: body := rfl
  simp only [entries?, front, string?_escaped, colon, read, comma]

include front read in
/-- The last entry. -/
theorem entries?_of_close (close : skipSpace after = '}' :: more) (fuel : Nat) :
    entries? value (fuel + 1) cs = some ([(some name, item)], more) := by
  have colon : skipSpace (':' :: body) = ':' :: body := rfl
  simp only [entries?, front, string?_escaped, colon, read, close]

end

/-- **The entries of a table** are read one after the other. -/
theorem entries?_renderEntries {value : Reader Document} {layout : Option Nat}
    {entries : List (String × Document)} (some : entries ≠ [])
    (reads : ∀ entry ∈ entries, ∀ rest, EndsNumber rest →
      value ((if layout.isSome then [' '] else []) ++
        ((render (layout.map (· + 1)) entry.2).toList ++ rest)) = .some (entry.2, rest))
    {fuel : Nat} (enough : entries.length ≤ fuel) (rest : List Char) :
    entries? value fuel ((renderEntries layout entries).toList ++ rest) =
      .some (entries.map fun entry => (.some entry.1, entry.2), rest) := by
  induction entries generalizing fuel with
  | nil => exact absurd rfl some
  | cons entry others ih =>
    rw [List.length_cons] at enough
    obtain ⟨fuel, rfl⟩ : ∃ less, fuel = less + 1 := ⟨fuel - 1, by omega⟩
    obtain ⟨here, later⟩ := List.forall_mem_cons.1 reads
    have front (after : List Char) :
        skipSpace (gap (layout.map (· + 1)) ++ (quote entry.1).toList ++
          (':' :: ((if layout.isSome then [' '] else []) ++
            ((render (layout.map (· + 1)) entry.2).toList ++ after)))) =
          '"' :: (entry.1.toList.flatMap escapeChar ++ '"' :: ':' ::
            ((if layout.isSome then [' '] else []) ++
              ((render (layout.map (· + 1)) entry.2).toList ++ after))) := by
      rw [List.append_assoc, skipSpace_gap, toList_quote, List.cons_append, List.append_assoc]
      rfl
    cases others with
    | nil =>
      have text : (renderEntries layout [entry]).toList ++ rest =
          gap (layout.map (· + 1)) ++ (quote entry.1).toList ++
            (':' :: ((if layout.isSome then [' '] else []) ++
              ((render (layout.map (· + 1)) entry.2).toList ++ (gap layout ++ '}' :: rest)))) := by
        rw [toList_renderEntries_cons, toList_renderEntries_nil]
        simp
      have ends : EndsNumber (gap layout ++ '}' :: rest) :=
        endsNumber_gap layout (endsNumber_cons rest (by decide))
      rw [text, entries?_of_close (front _) (here _ ends) (skipSpace_gap layout _)]
      rfl
    | cons next others =>
      have text : (renderEntries layout (entry :: next :: others)).toList ++ rest =
          gap (layout.map (· + 1)) ++ (quote entry.1).toList ++
            (':' :: ((if layout.isSome then [' '] else []) ++
              ((render (layout.map (· + 1)) entry.2).toList ++
                (',' :: ((renderEntries layout (next :: others)).toList ++ rest))))) := by
        rw [toList_renderEntries_cons]
        simp
      rw [text, entries?_of_comma (front _) (here _ (endsNumber_cons _ (by decide))) rfl,
        ih (List.cons_ne_nil next others) later (by omega)]
      rfl

theorem tableOf_map (entries : List (String × Document)) :
    tableOf (entries.map fun entry => (some entry.1, entry.2)) = .table entries := by
  have all : (entries.map fun entry => (some entry.1, entry.2)).mapM
      (fun entry : Option String × Document => entry.1.map fun name => (name, entry.2)) =
        some entries := by
    induction entries with
    | nil => rfl
    | cons entry entries ih =>
      rw [List.map_cons, List.mapM_cons, ih]
      rfl
  rw [tableOf, all]

/-! ## Lengths -/

/-- The text of a list has room for its items. -/
theorem length_le_renderItems (layout : Option Nat) (items : List Document) :
    items.length ≤ (renderItems layout items).toList.length ∧
      ∀ item ∈ items, (render (layout.map (· + 1)) item).toList.length ≤
        (renderItems layout items).toList.length := by
  induction items with
  | nil => exact ⟨Nat.zero_le _, nofun⟩
  | cons item others ih =>
    rw [toList_renderItems_cons]
    simp only [List.length_append, List.length_cons]
    refine ⟨?_, List.forall_mem_cons.2 ⟨by omega, fun other member => ?_⟩⟩
    · cases others with
      | nil =>
        rw [toList_renderItems_nil, List.length_append]
        exact Nat.le_add_left_of_le (Nat.le_add_left_of_le (Nat.le_add_left 1 _))
      | cons next others =>
        have count := ih.1
        change _ ≤ _ + (1 + _)
        omega
    · have room := ih.2 other member
      omega

/-- The text of a table has room for its entries. -/
theorem length_le_renderEntries (layout : Option Nat) (entries : List (String × Document)) :
    entries.length ≤ (renderEntries layout entries).toList.length ∧
      ∀ entry ∈ entries, (render (layout.map (· + 1)) entry.2).toList.length ≤
        (renderEntries layout entries).toList.length := by
  induction entries with
  | nil => exact ⟨Nat.zero_le _, nofun⟩
  | cons entry others ih =>
    rw [toList_renderEntries_cons]
    simp only [List.length_append, List.length_cons]
    refine ⟨?_, List.forall_mem_cons.2 ⟨by omega, fun other member => ?_⟩⟩
    · have count := ih.1
      omega
    · have room := ih.2 other member
      omega

/-! ## Values -/

theorem value?_text {i : Int} (low : -(signedLimit : Int) ≤ i) (high : i < unsignedLimit)
    {rest : List Char} (ends : EndsNumber rest) (fuel depth : Nat) :
    value? (fuel + 1) depth ((Integer.text i).toList ++ rest) = some (.int i, rest) := by
  have read := numberText?_text low high ends
  obtain ⟨c, more, text, begins⟩ := Integer.text_head i
  have isValue : BeginsValue c := by
    rcases begins with rfl | digit
    · decide
    · exact .inr digit
  rw [text, List.cons_append] at read ⊢
  unfold value?
  rw [isValue.skipSpace_eq]
  split
  case h_7 => exact read
  all_goals
    rename_i same
    cases same
    exact absurd begins (by decide)

theorem value?_list {body rest : List Char} {items : List Document} {fuel depth : Nat}
    (some : ∀ more, skipSpace body ≠ ']' :: more)
    (read : items? (value? fuel depth) (body.length + 1) body = .some (items, rest)) :
    value? (fuel + 1) (depth + 1) ('[' :: body) = .some (.list items, rest) := by
  have front : skipSpace ('[' :: body) = '[' :: body := rfl
  rw [value?, front]
  split
  case h_2 more same =>
    cases same
    split
    case h_1 more same => exact absurd same (some more)
    case h_2 =>
      rw [Nat.add_sub_cancel, read]
      rfl
  case h_7 _ list _ _ _ _ => exact (list body rfl).elim
  all_goals
    rename_i same
    exact absurd (List.cons.inj same).1 (by decide)

theorem value?_table {body rest : List Char} {entries : List (String × Document)}
    {fuel depth : Nat} (some : ∀ more, skipSpace body ≠ '}' :: more)
    (read : entries? (value? fuel depth) (body.length + 1) body =
      .some (entries.map fun entry => (.some entry.1, entry.2), rest)) :
    value? (fuel + 1) (depth + 1) ('{' :: body) = .some (.table entries, rest) := by
  have front : skipSpace ('{' :: body) = '{' :: body := rfl
  rw [value?, front]
  split
  case h_3 more same =>
    cases same
    split
    case h_1 more same => exact absurd same (some more)
    case h_2 =>
      rw [Nat.add_sub_cancel, read, Option.map_some, tableOf_map]
      rfl
  case h_7 _ _ table _ _ _ => exact (table body rfl).elim
  all_goals
    rename_i same
    exact absurd (List.cons.inj same).1 (by decide)

/-- **A document reads back**, whatever follows it. -/
theorem value?_render {depth : Nat} {d : Document} (written : Written depth d)
    {layout : Option Nat} {fuel : Nat} (enough : (render layout d).toList.length ≤ fuel + 1)
    {rest : List Char} (ends : EndsNumber rest) :
    value? (fuel + 1) depth ((render layout d).toList ++ rest) = some (d, rest) := by
  induction written generalizing layout fuel rest with
  | null =>
    rw [render]
    rfl
  | bool value =>
    cases value with
    | true =>
      rw [render]
      rfl
    | false =>
      rw [render]
      rfl
  | int low high =>
    rw [render]
    exact value?_text low high ends fuel _
  | text value =>
    rw [render, toList_quote, List.cons_append, List.append_assoc]
    change (string? (value.toList.flatMap escapeChar ++ '"' :: rest)).map _ = _
    rw [string?_escaped]
    rfl
  | @list depth items inside ih =>
    cases items with
    | nil =>
      rw [render]
      rfl
    | cons item items =>
      obtain ⟨count, room⟩ := length_le_renderItems layout (item :: items)
      have text : (render layout (.list (item :: items))).toList =
          '[' :: (renderItems layout (item :: items)).toList := by
        rw [render, String.toList_append]
        rfl
      rw [text, List.length_cons] at enough
      rw [List.length_cons] at count
      obtain ⟨fuel, rfl⟩ : ∃ less, fuel = less + 1 := ⟨fuel - 1, by omega⟩
      rw [text, List.cons_append]
      apply value?_list
      · obtain ⟨c, others, front, begins⟩ :=
          render_head (inside item List.mem_cons_self) (layout.map (· + 1))
        intro more same
        rw [toList_renderItems_cons, front, List.append_assoc, List.append_assoc, skipSpace_gap,
          List.cons_append, begins.skipSpace_eq] at same
        exact begins.ne (by decide) (List.cons.inj same).1
      · refine items?_renderItems (List.cons_ne_nil item items) ?_ ?_ rest
        · intro inner member rest ends
          rw [List.append_assoc, value?_congr (skipSpace_gap _ _)]
          exact ih inner member (by have := room inner member; omega) ends
        · rw [List.length_append, List.length_cons]
          omega
  | @table depth entries inside ih =>
    cases entries with
    | nil =>
      rw [render]
      rfl
    | cons entry entries =>
      obtain ⟨count, room⟩ := length_le_renderEntries layout (entry :: entries)
      have text : (render layout (.table (entry :: entries))).toList =
          '{' :: (renderEntries layout (entry :: entries)).toList := by
        rw [render, String.toList_append]
        rfl
      rw [text, List.length_cons] at enough
      rw [List.length_cons] at count
      obtain ⟨fuel, rfl⟩ : ∃ less, fuel = less + 1 := ⟨fuel - 1, by omega⟩
      rw [text, List.cons_append]
      apply value?_table
      · intro more same
        rw [toList_renderEntries_cons, toList_quote, List.append_assoc, List.append_assoc,
          skipSpace_gap] at same
        cases same
      · refine entries?_renderEntries (List.cons_ne_nil entry entries) ?_ ?_ rest
        · intro inner member rest ends
          have blank : skipSpace ((if layout.isSome then [' '] else []) ++
              ((render (layout.map (· + 1)) inner.2).toList ++ rest)) =
                skipSpace ((render (layout.map (· + 1)) inner.2).toList ++ rest) := by
            cases layout with
            | none => rfl
            | some level => rfl
          rw [value?_congr blank]
          exact ih inner member (by have := room inner member; omega) ends
        · rw [List.length_append, List.length_cons]
          omega

/-- A document that is not nested too deep reads back from its text in every layout, also if there
is white space behind it. -/
theorem read?_render_append {d : Document} (written : Written depthLimit d) (layout : Option Nat)
    {blanks : String} (space : skipSpace blanks.toList = []) (ends : EndsNumber blanks.toList) :
    read? (render layout d ++ blanks) = some d := by
  have enough : (render layout d).toList.length ≤ (render layout d ++ blanks).toList.length + 1 := by
    rw [String.toList_append, List.length_append]
    omega
  have read := value?_render written enough ends
  rw [← String.toList_append] at read
  rw [read?, read]
  dsimp only
  rw [space]
  rfl

/-- **A document that is not nested too deep reads back** from its text in every layout. -/
theorem read?_render {d : Document} (written : Written depthLimit d) (layout : Option Nat) :
    read? (render layout d) = some d := by
  have read := read?_render_append written layout (rfl : skipSpace "".toList = []) nofun
  rwa [String.append_empty] at read

end ShaderChain.Json
