import TableSieve.Proofs.RowFates
import Mathlib.Data.List.Perm.Subperm

/-!
When tables can be appended, and what comes of it. Two columns of one name join unless both have
present cells and their types differ, integers below floats apart; two tables join if they have the
same names and the columns of each name join. The appended table has the rows of the upper table
and then those of the lower one, in the columns of the upper table and with integers widened.
-/

namespace TableSieve

open TableSieve.Number

namespace Cell

def widen (type : CellType) : Cell → Cell
  | .int value => if type = .float then .float (ofInt value.toInt) else .int value
  | cell => cell

theorem widen_of_accepts {type : CellType} {cell : Cell} (accepted : type.accepts cell = true) :
    cell.widen type = cell := by
  cases cell with
  | int value =>
      obtain rfl : .int = type := by simpa [CellType.accepts, type?] using accepted
      rfl
  | _ => rfl

end Cell

theorem CellType.cast?_eq_some_iff {type : CellType} {cell fit : Cell} :
    type.cast? cell = some fit ↔
      (type.accepts cell = true ∨ (type = .float ∧ cell.type? = some .int)) ∧
        fit = cell.widen type := by
  by_cases accepted : type.accepts cell = true
  · rw [cast?_of_accepts accepted, Cell.widen_of_accepts accepted]
    simp [accepted, eq_comm]
  · unfold cast?
    split
    · rw [Option.some.injEq]
      exact ⟨fun same => ⟨Or.inr ⟨rfl, rfl⟩, same.symm⟩, fun both => both.2.symm⟩
    · rename_i notWidened
      have notInt : ¬(type = .float ∧ cell.type? = some .int) := by
        rintro ⟨rfl, isInt⟩
        cases cell with
        | int value => exact notWidened value rfl rfl
        | _ => simp [Cell.type?] at isInt
      simp [accepted, notInt]

namespace Column

/-- Whether a column may come below another: one of them has no present cell, their types are the
same, or integers come below floats. -/
def Joins (upper lower : Column) : Prop :=
  upper.allMissing = true ∨ lower.allMissing = true ∨ upper.type = lower.type ∨
    (upper.type = .float ∧ lower.type = .int)

def join (upper lower : Column) : Column :=
  ⟨upper.name, upper.joinedType lower,
    upper.cells ++ lower.cells.map (Cell.widen (upper.joinedType lower))⟩

theorem joinedType_of_allMissing {upper : Column} (missing : upper.allMissing = true)
    (lower : Column) : upper.joinedType lower = lower.type := by
  simp [joinedType, missing]

theorem joinedType_of_present {upper : Column} (present : ¬upper.allMissing = true)
    (lower : Column) : upper.joinedType lower = upper.type := by
  simp [joinedType, present]

theorem WellTyped.fits_iff {column : Column} (wellTyped : column.WellTyped) (type : CellType) :
    (∀ cell ∈ column.cells,
        type.accepts cell = true ∨ (type = .float ∧ cell.type? = some .int)) ↔
      column.allMissing = true ∨ type = column.type ∨ (type = .float ∧ column.type = .int) := by
  constructor
  · intro fits
    by_cases missing : column.allMissing = true
    · exact Or.inl missing
    · obtain ⟨cell, member, present⟩ : ∃ cell ∈ column.cells, cell.isMissing = false := by
        simpa [allMissing] using missing
      have given := Cell.type?_of_accepts (wellTyped cell member) present
      refine Or.inr ?_
      rcases fits cell member with accepted | ⟨isFloat, isInt⟩
      · have fit := Cell.type?_of_accepts accepted present
        exact Or.inl (Option.some.inj (fit.symm.trans given))
      · exact Or.inr ⟨isFloat, Option.some.inj (given.symm.trans isInt)⟩
  · rintro (missing | rfl | ⟨isFloat, isInt⟩) cell member
    · exact Or.inl (CellType.accepts_of_missing (List.all_eq_true.mp missing cell member) type)
    · exact Or.inl (wellTyped cell member)
    · cases present : cell.isMissing with
      | true => exact Or.inl (CellType.accepts_of_missing present type)
      | false =>
          exact Or.inr ⟨isFloat, isInt ▸ Cell.type?_of_accepts (wellTyped cell member) present⟩

theorem joins_iff {upper lower : Column} (wellTyped : lower.WellTyped) :
    upper.Joins lower ↔ ∀ cell ∈ lower.cells, (upper.joinedType lower).accepts cell = true ∨
      (upper.joinedType lower = .float ∧ cell.type? = some .int) := by
  rw [wellTyped.fits_iff]
  by_cases missing : upper.allMissing = true
  · simp [Joins, joinedType_of_allMissing missing, missing]
  · simp [Joins, joinedType_of_present missing, missing]

theorem mapM_cast?_eq_some_iff {type : CellType} {cells fit : List Cell} :
    cells.mapM type.cast? = some fit ↔
      (∀ cell ∈ cells, type.accepts cell = true ∨ (type = .float ∧ cell.type? = some .int)) ∧
        fit = cells.map (Cell.widen type) := by
  rw [mapM_eq_some_iff]
  exact map_eq_map_iff fun _ _ _ => CellType.cast?_eq_some_iff

theorem joinColumn_eq_ok_iff {upper lower joined : Column} (wellTyped : upper.WellTyped)
    (lowerWellTyped : lower.WellTyped) :
    Table.joinColumn upper lower = .ok joined ↔
      upper.Joins lower ∧ joined = upper.join lower := by
  have accepted := wellTyped.accepts_joinedType lower
  have unchanged : upper.cells.map (Cell.widen (upper.joinedType lower)) = upper.cells := by
    rw [List.map_congr_left fun cell member => Cell.widen_of_accepts (accepted cell member),
      List.map_id']
  have made : Table.joinColumn upper lower =
      ofCells upper.name (upper.joinedType lower) (upper.cells ++ lower.cells) := rfl
  rw [made, ofCells_eq_ok_iff, joins_iff lowerWellTyped]
  simp only [mapM_cast?_eq_some_iff, List.forall_mem_append, List.map_append, unchanged, join]
  constructor
  · rintro ⟨_, ⟨⟨_, fits⟩, rfl⟩, rfl⟩
    exact ⟨fits, rfl⟩
  · rintro ⟨fits, rfl⟩
    exact ⟨_, ⟨⟨fun cell member => Or.inl (accepted cell member), fits⟩, rfl⟩, rfl⟩

end Column

namespace Table

def joinIn (lower : Table) (column : Column) : Column :=
  match lower.column? column.name with
  | some below => column.join below
  | none => column

def appended (upper lower : Table) : Table :=
  ⟨upper.columns.map lower.joinIn, upper.size + lower.size⟩

structure Joinable (upper lower : Table) : Prop where
  sameNames : ∀ name, name ∈ upper.names ↔ name ∈ lower.names
  joins : ∀ above ∈ upper.columns, ∀ below ∈ lower.columns, above.name = below.name →
    above.Joins below

theorem joinIn_of_column? {lower : Table} {column below : Column}
    (found : lower.column? column.name = some below) :
    lower.joinIn column = column.join below := by
  simp [joinIn, found]

theorem name_joinIn (lower : Table) (column : Column) :
    (lower.joinIn column).name = column.name := by
  unfold joinIn
  split <;> rfl

theorem names_appended (upper lower : Table) : (upper.appended lower).names = upper.names := by
  simp [appended, names, Function.comp_def, name_joinIn]

theorem exists_column?_of_mem {table : Table} {name : String} (known : name ∈ table.names) :
    ∃ column, table.column? name = some column :=
  exists_column?_iff.mpr (names_eq_schema table ▸ known)

theorem Joinable.exists_below {upper lower : Table} (joinable : upper.Joinable lower)
    {above : Column} (member : above ∈ upper.columns) :
    ∃ below, lower.column? above.name = some below ∧ above.Joins below := by
  obtain ⟨below, found⟩ :=
    exists_column?_of_mem ((joinable.sameNames above.name).mp (List.mem_map_of_mem member))
  obtain ⟨present, sameName⟩ := mem_of_column? found
  exact ⟨below, found, joinable.joins above member below present sameName.symm⟩

theorem joinBelow_eq_ok_iff {lower : Table} {column joined : Column}
    (wellTyped : column.WellTyped) (lowerWellFormed : lower.WellFormed) :
    lower.joinBelow column = .ok joined ↔
      (∃ below, lower.column? column.name = some below ∧ column.Joins below) ∧
        joined = lower.joinIn column := by
  cases found : lower.column? column.name with
  | none => simp [joinBelow, found]
  | some below =>
      have belowWellTyped := lowerWellFormed.cells below (mem_of_column? found).1
      simp [joinBelow, found, joinIn_of_column? found,
        Column.joinColumn_eq_ok_iff wellTyped belowWellTyped]

theorem WellFormed.sameNames_iff {upper lower : Table} (wellFormed : upper.WellFormed)
    (lowerWellFormed : lower.WellFormed) :
    (∀ name, name ∈ upper.names ↔ name ∈ lower.names) ↔
      upper.columns.length = lower.columns.length ∧ upper.names ⊆ lower.names := by
  have distinct : upper.names.Nodup := wellFormed.names_distinct
  have lowerDistinct : lower.names.Nodup := lowerWellFormed.names_distinct
  constructor
  · intro same
    have perm := (List.perm_ext_iff_of_nodup distinct lowerDistinct).mpr same
    exact ⟨by simpa [names] using perm.length_eq, perm.subset⟩
  · rintro ⟨sameCount, inside⟩ name
    have shorter : lower.names.length ≤ upper.names.length := by simp [names, sameCount]
    have perm := (List.subperm_of_subset distinct inside).perm_of_length_le shorter
    exact perm.mem_iff

theorem WellFormed.concat_eq_ok_iff {upper lower joined : Table} (wellFormed : upper.WellFormed)
    (lowerWellFormed : lower.WellFormed) :
    upper.concat lower = .ok joined ↔ upper.Joinable lower ∧ joined = upper.appended lower := by
  have visited : ∀ columns, upper.columns.mapM lower.joinBelow = .ok columns ↔
      (∀ above ∈ upper.columns,
        ∃ below, lower.column? above.name = some below ∧ above.Joins below) ∧
          columns = upper.columns.map lower.joinIn := by
    intro columns
    rw [mapM_eq_ok_iff]
    exact map_eq_map_iff fun above member _ =>
      joinBelow_eq_ok_iff (wellFormed.cells above member) lowerWellFormed
  constructor
  · intro done
    by_cases sameCount : upper.columns.length = lower.columns.length
    · simp only [Table.concat, sameCount, ne_eq, not_true_eq_false, if_false] at done
      obtain ⟨columns, joinedColumns, built⟩ := bind_eq_ok_iff.mp done
      obtain ⟨below, rfl⟩ := (visited columns).mp joinedColumns
      obtain rfl := Except.ok.inj built
      refine ⟨⟨(wellFormed.sameNames_iff lowerWellFormed).mpr ⟨sameCount, ?_⟩, ?_⟩, rfl⟩
      · intro name known
        obtain ⟨above, member, rfl⟩ := List.mem_map.mp known
        obtain ⟨under, found, _⟩ := below above member
        obtain ⟨present, sameName⟩ := mem_of_column? found
        exact sameName ▸ List.mem_map_of_mem present
      · intro above member under present sameName
        obtain ⟨other, found, joins⟩ := below above member
        rw [sameName, lowerWellFormed.column?_name present] at found
        exact Option.some.inj found ▸ joins
    · simp [Table.concat, sameCount] at done
  · rintro ⟨joinable, rfl⟩
    obtain ⟨sameCount, _⟩ := (wellFormed.sameNames_iff lowerWellFormed).mp joinable.sameNames
    have columns := (visited _).mpr ⟨fun above member => joinable.exists_below member, rfl⟩
    simp only [Table.concat, sameCount, ne_eq, not_true_eq_false, if_false, columns]
    rfl

def placedRow (table : Table) (schema : List (String × CellType)) (row : List Cell) : List Cell :=
  schema.map fun header => (fieldOf table.schema row header.1).widen header.2

theorem Joinable.rows_appended {upper lower : Table} (joinable : upper.Joinable lower)
    (wellFormed : upper.WellFormed) (lowerWellFormed : lower.WellFormed) :
    (upper.appended lower).rows =
      upper.rows ++ lower.rows.map (lower.placedRow (upper.appended lower).schema) := by
  let read (above : Column) (row : List Cell) : Cell :=
    (fieldOf lower.schema row above.name).widen (lower.joinIn above).type
  have cells : (upper.columns.map lower.joinIn).map Column.cells =
      List.zipWith (· ++ ·) (upper.columns.map Column.cells)
        ((upper.columns.map read).map fun field => lower.rows.map field) := by
    rw [List.map_map, List.map_map, List.zipWith_map, List.zipWith_self]
    apply List.map_congr_left
    intro above member
    obtain ⟨below, found, _⟩ := joinable.exists_below member
    simp [read, joinIn_of_column? found, Column.join, lowerWellFormed.cells_eq_map found]
  have placed : ∀ row, (upper.columns.map read).map (fun field => field row) =
      lower.placedRow (upper.appended lower).schema row := by
    intro row
    simp [placedRow, schema, appended, read, name_joinIn]
  have below := transpose_reads (upper.columns.map read) lower.rows
  rw [lowerWellFormed.length_rows] at below
  simp only [placed] at below
  rw [rows, appended, cells,
    transpose_append lower.size wellFormed.lists_length (by simp), below]
  rfl

/-- Two tables can be appended exactly if they have the same names and, for each name, one of the
columns has no present cell, their types are the same, or integers come below floats. The appended
table has the upper names in their order, a column of each that has the type of the lower one if the
upper one has no present cell, and below the upper rows the lower ones, found by name and with
integers widened where the type is float. -/
theorem WellFormed.concat_joins {upper lower : Table} (wellFormed : upper.WellFormed)
    (lowerWellFormed : lower.WellFormed) :
    ((∃ joined, upper.concat lower = .ok joined) ↔
        (∀ name, name ∈ upper.names ↔ name ∈ lower.names) ∧
          ∀ above ∈ upper.columns, ∀ below ∈ lower.columns, above.name = below.name →
            above.allMissing = true ∨ below.allMissing = true ∨ above.type = below.type ∨
              (above.type = .float ∧ below.type = .int)) ∧
      ∀ joined, upper.concat lower = .ok joined →
        joined.names = upper.names ∧
          (∀ column ∈ joined.columns, ∀ above ∈ upper.columns, ∀ below ∈ lower.columns,
            above.name = column.name → below.name = column.name →
              column.type = if above.allMissing then below.type else above.type) ∧
          joined.rows = upper.rows ++ lower.rows.map (lower.placedRow joined.schema) := by
  constructor
  · constructor
    · rintro ⟨joined, done⟩
      obtain ⟨⟨sameNames, joins⟩, _⟩ := (wellFormed.concat_eq_ok_iff lowerWellFormed).mp done
      exact ⟨sameNames, joins⟩
    · rintro ⟨sameNames, joins⟩
      exact ⟨_, (wellFormed.concat_eq_ok_iff lowerWellFormed).mpr ⟨⟨sameNames, joins⟩, rfl⟩⟩
  · intro joined done
    obtain ⟨joinable, rfl⟩ := (wellFormed.concat_eq_ok_iff lowerWellFormed).mp done
    refine ⟨names_appended upper lower, ?_, joinable.rows_appended wellFormed lowerWellFormed⟩
    intro column member above aboveMember below belowMember aboveName belowName
    obtain ⟨other, otherMember, rfl⟩ := List.mem_map.mp member
    rw [name_joinIn] at aboveName belowName
    have sameAbove : other = above := by
      have found := wellFormed.column?_name aboveMember
      rw [aboveName, wellFormed.column?_name otherMember] at found
      exact Option.some.inj found
    subst sameAbove
    have found := lowerWellFormed.column?_name belowMember
    rw [belowName] at found
    rw [joinIn_of_column? found]
    rfl

theorem WellFormed.concat_joins_widened :
    let upper : Table := ⟨[⟨"x", .float, [.float 1]⟩, ⟨"y", .text, [.null]⟩], 1⟩
    let lower : Table := ⟨[⟨"y", .int, [.int 2, .null]⟩, ⟨"x", .int, [.int 3, .null]⟩], 2⟩
    upper.WellFormed ∧ lower.WellFormed ∧
      (∃ joined, upper.concat lower = .ok joined ∧ joined.names = ["x", "y"] ∧
        joined.rows =
          [[.float 1, .null], [.float (ofInt 3), .int 2], [.null, .null]]) ∧
      ¬∃ joined, lower.concat upper = .ok joined := by
  intro upper lower
  have wellFormed : upper.WellFormed := by decide +kernel
  have lowerWellFormed : lower.WellFormed := by decide +kernel
  obtain ⟨succeeds, appends⟩ := wellFormed.concat_joins lowerWellFormed
  have sameNames : ∀ name, name ∈ upper.names ↔ name ∈ lower.names := by
    intro name
    simp [upper, lower, names, or_comm]
  obtain ⟨joined, done⟩ := succeeds.mpr ⟨sameNames, by decide +kernel⟩
  obtain ⟨namesOf, _, rowsOf⟩ := appends joined done
  refine ⟨wellFormed, lowerWellFormed, ⟨joined, done, namesOf, ?_⟩, ?_⟩
  · have given : joined = ⟨[⟨"x", .float, [.float 1, .float (ofInt 3), .null]⟩,
        ⟨"y", .int, [.null, .int 2, .null]⟩], 3⟩ := Except.ok.inj (done.symm.trans rfl)
    rw [rowsOf, given]
    decide +kernel
  · intro reversed
    have joins := ((lowerWellFormed.concat_joins wellFormed).1.mp reversed).2
    revert joins
    decide +kernel

end Table

end TableSieve
