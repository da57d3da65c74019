import TableSieve.Csv.Reader
import TableSieve.Proofs.Appending

/-!
Building tables of columns. Columns of one length with different names are a table, and those that a
file is read to are well typed, so a table that was read is well formed.
-/

namespace TableSieve

theorem Column.wellTyped_of_ofCells {name : String} {type : CellType} {cells : List Cell}
    {column : Column} (built : ofCells name type cells = .ok column) : column.WellTyped := by
  obtain ⟨fit, cast, rfl⟩ := ofCells_eq_ok_iff.mp built
  exact accepts_of_mapM_cast? cast

theorem Column.WellTyped.ofCells_eq {column : Column} (wellTyped : column.WellTyped) :
    Column.ofCells column.name column.type column.cells = .ok column :=
  ofCells_eq_ok_iff.mpr ⟨column.cells, mapM_cast?_of_accepts wellTyped, rfl⟩

namespace Table

theorem firstFault?_eq_none_iff {size : Nat} {seen : List String} {columns : List Column} :
    firstFault? size seen columns = none ↔
      (∀ column ∈ columns, column.name ∉ seen ∧ column.cells.length = size) ∧
        (columns.map Column.name).Nodup := by
  induction columns generalizing seen with
  | nil => simp [firstFault?]
  | cons column columns ih =>
      simp only [firstFault?, List.forall_mem_cons, List.map_cons, List.nodup_cons]
      by_cases known : column.name ∈ seen
      · simp [known]
      · by_cases length : column.cells.length = size
        · simp only [List.contains_iff_mem, known, length, ne_eq, not_true_eq_false, if_false, ih,
            List.mem_cons, not_or, not_false_eq_true, true_and]
          constructor
          · rintro ⟨rest, distinct⟩
            refine ⟨fun other member => ⟨(rest other member).1.2, (rest other member).2⟩, ?_,
              distinct⟩
            intro repeated
            obtain ⟨other, member, same⟩ := List.mem_map.mp repeated
            exact (rest other member).1.1 same
          · rintro ⟨rest, fresh, distinct⟩
            refine ⟨fun other member => ⟨⟨?_, (rest other member).1⟩, (rest other member).2⟩,
              distinct⟩
            intro same
            exact fresh (List.mem_map.mpr ⟨other, member, same⟩)
        · simp [known, length]

theorem ofColumns_eq_ok_iff {columns : List Column} {table : Table} :
    ofColumns columns = .ok table ↔
      table = ⟨columns, (columns.head?.map (·.cells.length)).getD 0⟩ ∧
        (∀ column ∈ columns, column.cells.length = table.size) ∧
          (columns.map Column.name).Nodup := by
  unfold ofColumns
  dsimp only
  split
  · rename_i fault found
    constructor
    · intro built
      cases built
    · rintro ⟨rfl, lengths, distinct⟩
      have none := firstFault?_eq_none_iff.mpr
        ⟨fun column member => ⟨List.not_mem_nil, lengths column member⟩, distinct⟩
      rw [none] at found
      cases found
  · rename_i none
    obtain ⟨fits, distinct⟩ := firstFault?_eq_none_iff.mp none
    constructor
    · intro built
      obtain rfl := Except.ok.inj built
      exact ⟨rfl, fun column member => (fits column member).2, distinct⟩
    · rintro ⟨rfl, _⟩
      rfl

theorem wellFormed_of_ofColumns {columns : List Column} {table : Table}
    (typed : ∀ column ∈ columns, column.WellTyped) (built : ofColumns columns = .ok table) :
    table.WellFormed := by
  obtain ⟨rfl, lengths, distinct⟩ := ofColumns_eq_ok_iff.mp built
  exact ⟨distinct, lengths, typed⟩

end Table

namespace Csv

theorem wellFormed_of_readTable {bytes : List UInt8} {table : Table}
    (read : readTable bytes = .ok table) : table.WellFormed := by
  obtain ⟨⟨names, rows⟩, _, built⟩ := bind_eq_ok_iff.mp read
  cases made : tableOf names rows with
  | error error => simp [made, mapError_error] at built
  | ok given =>
      obtain rfl : given = table := by simpa [made, mapError_ok, mapError_error] using built
      obtain ⟨columns, visited, joined⟩ := bind_eq_ok_iff.mp made
      refine Table.wellFormed_of_ofColumns ?_ joined
      intro column member
      have listed := List.mem_map_of_mem (f := Except.ok (ε := TableError)) member
      rw [← mapM_eq_ok_iff.mp visited] at listed
      obtain ⟨entry, _, columnBuilt⟩ := List.mem_map.mp listed
      exact Column.wellTyped_of_ofCells columnBuilt

end Csv

end TableSieve
