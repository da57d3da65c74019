import Mathlib.Data.List.Forall2
import TableSieve.Proofs.Positions
import TableSieve.Proofs.Validating

/-!
What the rules on missing cells leave alone. Deletions read the table as it was given, and no later
step drops a row. Erasing changes only the fields that it lists and never makes a cell present;
filling changes only the fields that it lists and never changes a present cell. Both are kept along
any run of steps.
-/

namespace TableSieve

theorem lookup_zip_zipWith {α β γ : Type} [BEq α] [LawfulBEq α] (change : α → β → γ)
    (names : List α) (row : List β) (name : α) :
    (names.zip (List.zipWith change names row)).lookup name =
      ((names.zip row).lookup name).map (change name) := by
  induction names generalizing row with
  | nil => rfl
  | cons first names ih =>
      cases row with
      | nil => rfl
      | cons cell row =>
          simp only [List.zipWith_cons_cons, List.zip_cons_cons, List.lookup_cons]
          cases same : name == first with
          | true => rw [beq_iff_eq.mp same, Option.map_some]
          | false => exact ih row

theorem cellAt_setField (schema : List (String × CellType)) (name : String) (cell : Cell)
    (row : List Cell) (other : String) :
    cellAt (schema.map (·.1)) (setField schema name cell row) other =
      (cellAt (schema.map (·.1)) row other).map fun old => if other == name then cell else old :=
  lookup_zip_zipWith _ _ row other

theorem cellAt_setField_of_ne {schema : List (String × CellType)} {name other : String}
    (different : other ≠ name) (cell : Cell) (row : List Cell) :
    cellAt (schema.map (·.1)) (setField schema name cell row) other =
      cellAt (schema.map (·.1)) row other := by
  simp [cellAt_setField, different]

theorem fieldOf_of_cellAt {schema : List (String × CellType)} {row : List Cell} {name : String}
    {cell : Cell} (found : cellAt (schema.map (·.1)) row name = some cell) :
    fieldOf schema row name = cell := by
  rw [fieldOf, found, Option.getD_some]

theorem exists_of_cellAt_setField {schema : List (String × CellType)} {name : String}
    {cell found : Cell} {row : List Cell}
    (holds : cellAt (schema.map (·.1)) (setField schema name cell row) name = some found) :
    found = cell ∧ cellAt (schema.map (·.1)) row name = some (fieldOf schema row name) := by
  rw [cellAt_setField] at holds
  obtain ⟨old, oldFound, rfl⟩ := Option.map_eq_some_iff.mp holds
  rw [fieldOf_of_cellAt oldFound]
  exact ⟨by simp, oldFound⟩

theorem forall₂_filter_filterMap {α β : Type} {related : α → β → Prop} {keep : α → Bool}
    {visit : α → Option β} (items : List α)
    (kept : ∀ item, keep item = true → ∃ result, visit item = some result ∧ related item result)
    (dropped : ∀ item, keep item = false → visit item = none) :
    List.Forall₂ related (items.filter keep) (items.filterMap visit) := by
  induction items with
  | nil => exact .nil
  | cons item items ih =>
      cases passes : keep item with
      | true =>
          obtain ⟨result, given, holds⟩ := kept item passes
          rw [List.filter_cons_of_pos passes, List.filterMap_cons_some given]
          exact .cons holds ih
      | false =>
          rw [List.filter_cons_of_neg (by simp [passes]),
            List.filterMap_cons_none (dropped item passes)]
          exact ih

/-- What erasing and filling the listed fields leaves of the cells of a row. -/
structure Framed (erased copied : List String) (before after : String → Option Cell) : Prop where
  unlisted : ∀ name, name ∉ erased → name ∉ copied → after name = before name
  present_stays : ∀ name cell, name ∉ erased → before name = some cell → cell.isMissing = false →
    after name = some cell
  present_was : ∀ name cell, name ∉ copied → after name = some cell → cell.isMissing = false →
    before name = some cell

namespace Framed

variable {erased copied : List String} {before between after : String → Option Cell}

theorem refl (erased copied : List String) (cells : String → Option Cell) :
    Framed erased copied cells cells :=
  ⟨fun _ _ _ => rfl, fun _ _ _ found _ => found, fun _ _ _ found _ => found⟩

theorem trans (first : Framed erased copied before between)
    (second : Framed erased copied between after) : Framed erased copied before after where
  unlisted name notErased notCopied :=
    (second.unlisted name notErased notCopied).trans (first.unlisted name notErased notCopied)
  present_stays name cell notErased found present :=
    second.present_stays name cell notErased
      (first.present_stays name cell notErased found present) present
  present_was name cell notCopied found present :=
    first.present_was name cell notCopied
      (second.present_was name cell notCopied found present) present

end Framed

namespace NullRule

def erased (rule : NullRule) : List String :=
  match rule.action with
  | .delete => []
  | .spread erased _ => erased

def copied (rule : NullRule) : List String :=
  match rule.action with
  | .delete => []
  | .spread _ copied => copied

end NullRule

namespace NullGroups

variable {schema : List (String × CellType)} {erased copied : List String}

def Frames (schema : List (String × CellType)) (erased copied : List String)
    (fate : List Cell → RowFate) : Prop :=
  ∀ row, ∃ after, fate row = .kept after ∧
    Framed erased copied (cellAt (schema.map (·.1)) row) (cellAt (schema.map (·.1)) after)

theorem Frames.keep : Frames schema erased copied .kept :=
  fun row => ⟨row, rfl, .refl erased copied _⟩

theorem Frames.andThen {fate next : List Cell → RowFate} (first : Frames schema erased copied fate)
    (second : Frames schema erased copied next) :
    Frames schema erased copied fun row => (fate row).andThen next := by
  intro row
  obtain ⟨between, given, framed⟩ := first row
  obtain ⟨after, nextGiven, nextFramed⟩ := second between
  refine ⟨after, ?_, framed.trans nextFramed⟩
  simp only [given, RowFate.andThen, nextGiven]

theorem Frames.steps {α : Type} {fate : α → List Cell → RowFate} {items : List α}
    (frames : ∀ item ∈ items, Frames schema erased copied (fate item)) :
    Frames schema erased copied (RowFate.steps fate items) := by
  induction items with
  | nil => exact .keep
  | cons item items ih =>
      obtain ⟨first, rest⟩ := List.forall_mem_cons.mp frames
      exact first.andThen (ih rest)

theorem copyCell_of_present {related : Cell} (present : related.isMissing = false) (type : CellType)
    (main : Cell) : copyCell type main related = related := by
  simp [copyCell, present]

theorem frames_eraseRow (copied : List String) (main : String) {related : String}
    (listed : related ∈ erased) :
    Frames schema erased copied fun row => .kept (eraseRow schema main related row) := by
  intro row
  refine ⟨_, rfl, ?_⟩
  unfold eraseRow
  split
  · exact .refl erased copied _
  · have elsewhere : ∀ name, name ∉ erased → name ≠ related :=
      fun name notErased same => notErased (same ▸ listed)
    refine ⟨?_, ?_, ?_⟩
    · intro name notErased _
      exact cellAt_setField_of_ne (elsewhere name notErased) _ row
    · intro name cell notErased found _
      rw [cellAt_setField_of_ne (elsewhere name notErased), found]
    · intro name cell _ found present
      by_cases same : name = related
      · subst same
        obtain ⟨rfl, was⟩ := exists_of_cellAt_setField found
        unfold eraseCell at present ⊢
        split at present
        · simp [Cell.isMissing] at present
        · rename_i mainPresent
          rwa [if_neg mainPresent]
      · rwa [cellAt_setField_of_ne same] at found

theorem frames_copyRow (erased : List String) (main : String) {related : String}
    (listed : related ∈ copied) :
    Frames schema erased copied fun row => .kept (copyRow schema main related row) := by
  intro row
  refine ⟨_, rfl, ?_⟩
  unfold copyRow
  split
  · exact .refl erased copied _
  · split
    · split
      · have elsewhere : ∀ name, name ∉ copied → name ≠ related :=
          fun name notCopied same => notCopied (same ▸ listed)
        refine ⟨?_, ?_, ?_⟩
        · intro name _ notCopied
          exact cellAt_setField_of_ne (elsewhere name notCopied) _ row
        · intro name cell _ found present
          by_cases same : name = related
          · subst same
            rw [cellAt_setField, found, fieldOf_of_cellAt found, copyCell_of_present present]
            simp
          · rw [cellAt_setField_of_ne same, found]
        · intro name cell notCopied found _
          rwa [cellAt_setField_of_ne (elsewhere name notCopied)] at found
      · exact .refl erased copied _
    · exact .refl erased copied _

theorem frames_ruleFate {rule : NullRule} (erases : ∀ field ∈ rule.erased, field ∈ erased)
    (copies : ∀ field ∈ rule.copied, field ∈ copied) :
    Frames schema erased copied (ruleFate schema rule) := by
  unfold ruleFate
  unfold NullRule.erased at erases
  unfold NullRule.copied at copies
  cases action : rule.action with
  | delete => exact .keep
  | spread erasedHere copiedHere =>
      simp only [action] at erases copies
      exact .andThen (.steps fun related member => frames_eraseRow copied rule.main
        (erases related member)) (.steps fun related member => frames_copyRow erased rule.main
          (copies related member))

def erasedFields (groups : NullGroups) : List String :=
  groups.rules.flatMap NullRule.erased

def copiedFields (groups : NullGroups) : List String :=
  groups.rules.flatMap NullRule.copied

theorem frames_rules (groups : NullGroups) :
    Frames schema groups.erasedFields groups.copiedFields
      (RowFate.steps (ruleFate schema) groups.rules) := by
  refine .steps fun rule member => frames_ruleFate ?_ ?_
  · exact fun field inside => List.mem_flatMap.mpr ⟨rule, member, inside⟩
  · exact fun field inside => List.mem_flatMap.mpr ⟨rule, member, inside⟩

theorem forall₂_rows (groups : NullGroups) (rows : List (List Cell)) :
    List.Forall₂
      (fun row after => Framed groups.erasedFields groups.copiedFields
        (cellAt (schema.map (·.1)) row) (cellAt (schema.map (·.1)) after))
      (rows.filter (groups.spares schema))
      (rows.filterMap fun row => (groups.fate schema row).row?) := by
  apply forall₂_filter_filterMap
  · intro row spared
    have frames : Frames schema _ _ _ := frames_rules groups
    obtain ⟨after, given, framed⟩ := frames row
    refine ⟨after, ?_, framed⟩
    simp [fate, spared, RowFate.keepIf, RowFate.andThen, given, RowFate.row?]
  · intro row deleted
    simp [fate, deleted, RowFate.keepIf, RowFate.andThen, RowFate.row?]

variable {table : Table}

def Spares (groups : NullGroups) (cells : String → Option Cell) : Prop :=
  ∀ rule ∈ groups.rules, rule.action = .delete →
    ∃ cell, cells rule.main = some cell ∧ cell.isMissing = false

theorem mem_deleteFields {groups : NullGroups} {field : String} :
    field ∈ groups.deleteFields ↔ ∃ rule ∈ groups.rules, rule.action = .delete ∧
      rule.main = field := by
  rw [deleteFields, List.mem_filterMap]
  refine exists_congr fun rule => and_congr_right fun _ => ?_
  split <;> simp [*]

theorem spares_iff (wellFormed : table.WellFormed) {groups : NullGroups}
    (known : ∀ field ∈ groups.fields, field ∈ table.schema.map (·.1)) {row : List Cell}
    (member : row ∈ table.rows) :
    groups.spares table.schema row = true ↔ groups.Spares (table.onRow row) := by
  have found (field : String) (deletes : field ∈ groups.deleteFields) :=
    wellFormed.onRow_eq_some member (known field (groups.deleteFields_subset field deletes))
  simp only [spares, List.all_eq_true, Bool.not_eq_true', Spares]
  constructor
  · intro present rule inside action
    have deletes := mem_deleteFields.mpr ⟨rule, inside, action, rfl⟩
    exact ⟨_, found rule.main deletes, present rule.main deletes⟩
  · intro present field deletes
    obtain ⟨rule, inside, action, rfl⟩ := mem_deleteFields.mp deletes
    obtain ⟨cell, given, holds⟩ := present rule inside action
    obtain rfl := Option.some.inj ((found rule.main deletes).symm.trans given)
    exact holds

/-- The rules keep the rows in which every main field that deletes was present before any rule was
applied, and of their cells they change only those that are listed: an erased field loses its cell, a
missing cell is filled. -/
theorem apply_frames_rows (groups : NullGroups) (wellFormed : table.WellFormed)
    (hasFields : ∀ field ∈ groups.fields, table.hasColumn field = true) :
    ∃ narrowed positions,
      ((Constraint.nullGroups groups).apply table).result = .ok narrowed ∧
      narrowed.WellFormed ∧ narrowed.schema = table.schema ∧
      positions.Pairwise (· < ·) ∧
      (∀ position, position ∈ positions ↔
        ∃ row, table.rows[position]? = some row ∧ groups.Spares (table.onRow row)) ∧
      List.Forall₂
        (fun row after => Framed groups.erasedFields groups.copiedFields (table.onRow row)
          (narrowed.onRow after))
        (gather positions table.rows) narrowed.rows := by
  have known : ∀ field ∈ groups.fields, field ∈ table.schema.map (·.1) :=
    fun field member => Table.hasColumn_iff.mp (hasFields field member)
  have valid : (Constraint.nullGroups groups).validate table = .ok () :=
    Constraint.validate_eq_ok known
  have narrows := groups.narrows_filter wellFormed
  obtain ⟨narrowed, given, rows⟩ := (acts_filter wellFormed rfl known).rows
    (Filtering.Succeeds.good_of_narrows narrows (by decide))
  obtain ⟨narrowedWellFormed, sameSchema⟩ := narrows.keeps narrowed given
  have applied : ((Constraint.nullGroups groups).apply table).result = .ok narrowed := by
    rw [Constraint.apply, valid]
    exact given
  refine ⟨narrowed, markedPositions (table.rows.map (groups.spares table.schema)), applied,
    narrowedWellFormed, sameSchema, markedPositions_ascending _, ?_, ?_⟩
  · intro position
    rw [mem_markedPositions, List.getElem?_map, Option.map_eq_some_iff]
    refine exists_congr fun row => and_congr_right fun found => ?_
    exact spares_iff wellFormed known (List.mem_of_getElem? found)
  · rw [rows, ← keepMarked_eq_gather, keepMarked_map_marks]
    simp only [Table.onRow, Table.names_eq_schema, sameSchema]
    exact groups.forall₂_rows table.rows

theorem apply_frames_rows_erased :
    let groups : NullGroups := ⟨[⟨"age", .delete⟩, ⟨"team", .spread ["age"] ["room"]⟩]⟩
    let table : Table :=
      ⟨[⟨"age", .int, [.int 30, .null, .int 17]⟩, ⟨"team", .text, [.text "a", .text "b", .null]⟩,
        ⟨"room", .text, [.null, .null, .text "x"]⟩], 3⟩
    let narrowed : Table :=
      ⟨[⟨"age", .int, [.int 30, .null]⟩, ⟨"team", .text, [.text "a", .null]⟩,
        ⟨"room", .text, [.text "a", .text "x"]⟩], 2⟩
    table.WellFormed ∧ (∀ field ∈ groups.fields, table.hasColumn field = true) ∧
      ((Constraint.nullGroups groups).apply table).result = .ok narrowed ∧
      ∃ positions, 1 ∉ positions ∧ 2 ∈ positions ∧
        List.Forall₂
          (fun row after => Framed ["age"] ["room"] (table.onRow row) (narrowed.onRow after))
          (gather positions table.rows) narrowed.rows := by
  intro groups table narrowed
  have wellFormed : table.WellFormed := by decide
  have hasFields : ∀ field ∈ groups.fields, table.hasColumn field = true := by decide
  have given : ((Constraint.nullGroups groups).apply table).result = .ok narrowed := by rfl
  obtain ⟨other, positions, otherGiven, _, _, _, kept, framed⟩ :=
    groups.apply_frames_rows wellFormed hasFields
  obtain rfl : other = narrowed := Except.ok.inj (otherGiven.symm.trans given)
  refine ⟨wellFormed, hasFields, given, positions, ?_, ?_, framed⟩
  · rw [kept]
    rintro ⟨row, found, spared⟩
    obtain rfl : [Cell.null, .text "b", .null] = row := Option.some.inj found
    obtain ⟨cell, holds, present⟩ := spared ⟨"age", .delete⟩ (by simp [groups]) rfl
    obtain rfl : Cell.null = cell := Option.some.inj holds
    cases present
  · rw [kept]
    refine ⟨[.int 17, .null, .text "x"], rfl, ?_⟩
    simp only [Spares, groups, List.forall_mem_cons, reduceCtorEq, false_implies, forall_const]
    exact ⟨⟨.int 17, rfl, rfl⟩, trivial, by simp⟩

end NullGroups

end TableSieve
