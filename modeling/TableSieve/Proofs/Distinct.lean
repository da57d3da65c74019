import TableSieve.Proofs.Appending
import TableSieve.Proofs.RowKeys

/-!
Appending and dropping repeated rows. Rows may be dropped before more are appended: a dropped row
leaves one behind that is missing the same cells, so the joined columns get the same types, and the
first rows of the appended table are found after those of the upper one.
-/

namespace TableSieve

theorem lookup_zip_map {α β : Type} (change : α → β) (names : List String) (row : List α)
    (name : String) :
    (names.zip (row.map change)).lookup name = ((names.zip row).lookup name).map change := by
  induction names generalizing row with
  | nil => rfl
  | cons first names ih =>
      cases row with
      | nil => rfl
      | cons cell row =>
          simp only [List.map_cons, List.zip_cons_cons, List.lookup_cons]
          split
          · rfl
          · exact ih row

theorem isMissing_cellAt_of_rowKey {names : List String} {row other : List Cell} {name : String}
    {cell otherCell : Cell} (sameLength : row.length = other.length)
    (sameKey : Table.rowKey row = Table.rowKey other)
    (found : cellAt names row name = some cell)
    (otherFound : cellAt names other name = some otherCell) :
    cell.isMissing = otherCell.isMissing := by
  have keys := Table.rowKey_injective sameLength sameKey
  have left := lookup_zip_map Cell.key names row name
  have right := lookup_zip_map Cell.key names other name
  rw [keys, right] at left
  simp only [cellAt] at found otherFound
  rw [found, otherFound, Option.map_some, Option.map_some, Option.some.injEq] at left
  exact (Cell.isMissing_eq_of_key left).symm

namespace Table

variable {table : Table}

theorem column?_mapCells (size : Nat) (select : List Cell → List Cell) (name : String) :
    (table.mapCells size select).column? name =
      (table.column? name).map fun column => { column with cells := select column.cells } := by
  simp only [column?, mapCells, List.find?_map, Function.comp_def]

theorem column?_filter (mask : List Bool) (name : String) :
    (table.filter mask).column? name =
      (table.column? name).map fun column =>
        { column with cells := keepMarked mask column.cells } :=
  column?_mapCells _ _ name

theorem WellFormed.mem_cells_iff (wellFormed : table.WellFormed) {name : String} {column : Column}
    (found : table.column? name = some column) {cell : Cell} :
    cell ∈ column.cells ↔ ∃ row ∈ table.rows, cellAt table.names row name = some cell := by
  have cells := wellFormed.map_cellAt found
  constructor
  · intro member
    have listed : some cell ∈ column.cells.map some := List.mem_map_of_mem member
    rw [← cells] at listed
    exact List.mem_map.mp listed
  · rintro ⟨row, member, holds⟩
    have listed : some cell ∈ table.rows.map fun row => cellAt table.names row name :=
      holds ▸ List.mem_map_of_mem (f := fun row => cellAt table.names row name) member
    rw [cells] at listed
    obtain ⟨other, present, same⟩ := List.mem_map.mp listed
    exact Option.some.inj same ▸ present

theorem WellFormed.allMissing_distinct (wellFormed : table.WellFormed) {column : Column}
    (member : column ∈ table.columns) :
    (keepMarked (markFirsts (table.rows.map rowKey)) column.cells).all Cell.isMissing =
      column.allMissing := by
  have found := wellFormed.column?_name member
  have kept : table.distinct.column? column.name =
      some { column with cells := keepMarked (markFirsts (table.rows.map rowKey)) column.cells } := by
    rw [Table.distinct, column?_filter, found, Option.map_some]
  have keptWellFormed := wellFormed.distinct
  rw [Bool.eq_iff_iff, List.all_eq_true, Column.allMissing, List.all_eq_true]
  constructor
  · -- A dropped row has the key of one that is kept, and so misses the same cells.
    intro missing cell inside
    obtain ⟨row, rowMember, atRow⟩ := (wellFormed.mem_cells_iff found).mp inside
    have keyKept : rowKey row ∈ [] ++ (firstsAfter rowKey [] table.rows).map rowKey :=
      (mem_firstsAfter_keys rowKey [] table.rows _).mpr (by simpa using ⟨row, rowMember, rfl⟩)
    rw [List.nil_append, ← rows_distinct] at keyKept
    obtain ⟨other, otherMember, sameKey⟩ := List.mem_map.mp keyKept
    have sameNames : table.distinct.names = table.names := names_filter _
    have listed : cellAt table.names other column.name ∈
        table.distinct.rows.map fun row => cellAt table.distinct.names row column.name := by
      rw [sameNames]
      exact List.mem_map_of_mem (f := fun row => cellAt table.names row column.name) otherMember
    rw [keptWellFormed.map_cellAt kept] at listed
    obtain ⟨otherCell, otherInside, otherFound⟩ := List.mem_map.mp listed
    have sameLength : row.length = other.length := by
      rw [length_of_mem_rows rowMember, length_of_mem_rows otherMember, sameNames]
    rw [isMissing_cellAt_of_rowKey sameLength sameKey.symm atRow otherFound.symm]
    exact missing otherCell otherInside
  · intro missing cell inside
    exact missing cell (mem_of_mem_keepMarked inside)

theorem WellFormed.distinct_concat {upper lower : Table} (wellFormed : upper.WellFormed)
    (lowerWellFormed : lower.WellFormed) :
    (upper.distinct.concat lower).toOption.map Table.distinct =
      (upper.concat lower).toOption.map Table.distinct := by
  have sameAlignment : upper.distinct.align? lower = upper.align? lower :=
    align?_filter lower fun column member => wellFormed.allMissing_distinct member
  rw [toOption_concat wellFormed.distinct, toOption_concat wellFormed, sameAlignment]
  cases found : upper.align? lower with
  | none => rfl
  | some aligned =>
      have below := wellFormed.aligned lowerWellFormed found
      have belowDistinct := wellFormed.distinct.aligned lowerWellFormed (sameAlignment.trans found)
      simp only [Option.map_some, Option.some.injEq]
      apply WellFormed.eq_of_rows
      · exact (belowDistinct.wellFormed_stack wellFormed.distinct).distinct
      · exact (below.wellFormed_stack wellFormed).distinct
      · rw [schema_distinct, schema_distinct, belowDistinct.schema_stack, below.schema_stack]
      · rw [rows_distinct, rows_distinct, belowDistinct.rows_stack wellFormed.distinct,
          below.rows_stack wellFormed, rows_distinct, firstsAfter_firstsAfter_append]

theorem nodup_rowKey_distinct (table : Table) : (table.distinct.rows.map rowKey).Nodup := by
  rw [rows_distinct]
  exact (firstsAfter_nodup rowKey [] table.rows).1

end Table

end TableSieve
