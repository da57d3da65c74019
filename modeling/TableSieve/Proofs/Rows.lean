import TableSieve.Proofs.Lists
import TableSieve.Table.Basic

/-!
Tables as lists of rows. A well-formed table is known by its schema and its rows, and selecting rows
keeps the one and acts on the other.
-/

namespace TableSieve

theorem length_transpose {α : Type} {size : Nat} {lists : List (List α)}
    (lengths : ∀ list ∈ lists, list.length = size) : (transpose size lists).length = size := by
  induction lists with
  | nil => simp [transpose]
  | cons list lists ih =>
      obtain ⟨first, rest⟩ := List.forall_mem_cons.mp lengths
      have tail := ih rest
      simp only [transpose, List.foldr_cons, List.length_zipWith] at tail ⊢
      omega

theorem length_of_mem_transpose {α : Type} {size : Nat} {lists : List (List α)} {row : List α}
    (member : row ∈ transpose size lists) : row.length = lists.length := by
  induction lists generalizing row with
  | nil => simp_all [transpose]
  | cons list lists ih =>
      simp only [transpose, List.foldr_cons, ← List.map_uncurry_zip_eq_zipWith,
        List.mem_map] at member
      obtain ⟨⟨cell, rest⟩, pair, rfl⟩ := member
      simpa using ih (List.of_mem_zip pair).2

theorem keepMarked_transpose {α : Type} (marks : List Bool) (size : Nat) (lists : List (List α)) :
    keepMarked marks (transpose size lists) =
      transpose ((marks.take size).count true) (lists.map (keepMarked marks)) := by
  induction lists with
  | nil => exact keepMarked_replicate marks size []
  | cons list lists ih =>
      simp only [transpose, List.foldr_cons, List.map_cons] at ih ⊢
      rw [keepMarked_zipWith, ih]

theorem gather_transpose {α : Type} {positions : List Nat} {size : Nat} {lists : List (List α)}
    (lengths : ∀ list ∈ lists, list.length = size)
    (inRange : ∀ position ∈ positions, position < size) :
    gather positions (transpose size lists) =
      transpose positions.length (lists.map (gather positions)) := by
  induction lists with
  | nil => exact gather_replicate [] inRange
  | cons list lists ih =>
      obtain ⟨first, rest⟩ := List.forall_mem_cons.mp lengths
      have tail := ih rest
      have sameLength : list.length = (transpose size lists).length := by
        rw [first, length_transpose rest]
      simp only [transpose, List.foldr_cons, List.map_cons] at tail sameLength ⊢
      rw [gather_zipWith List.cons positions sameLength, tail]

theorem transpose_append {α : Type} {size : Nat} {uppers : List (List α)} (more : Nat)
    {lowers : List (List α)} (lengths : ∀ upper ∈ uppers, upper.length = size)
    (sameCount : uppers.length = lowers.length) :
    transpose (size + more) (List.zipWith (· ++ ·) uppers lowers) =
      transpose size uppers ++ transpose more lowers := by
  induction uppers generalizing lowers with
  | nil =>
      have none : lowers = [] := List.eq_nil_of_length_eq_zero sameCount.symm
      subst none
      simp [transpose, List.replicate_append_replicate]
  | cons upper uppers ih =>
      cases lowers with
      | nil => simp at sameCount
      | cons lower lowers =>
          obtain ⟨first, rest⟩ := List.forall_mem_cons.mp lengths
          have tail := ih rest (by simpa using sameCount)
          have sameLength : upper.length = (transpose size uppers).length := by
            rw [first, length_transpose rest]
          simp only [transpose, List.foldr_cons, List.zipWith_cons_cons] at tail sameLength ⊢
          rw [tail, List.zipWith_append sameLength]

theorem transpose_reads {α β : Type} (reads : List (β → α)) (rows : List β) :
    transpose rows.length (reads.map fun read => rows.map read) =
      rows.map fun row => reads.map fun read => read row := by
  induction reads with
  | nil => simp [transpose, List.map_const']
  | cons read reads ih =>
      simp only [transpose, List.map_cons, List.foldr_cons] at ih ⊢
      rw [ih]
      simp [List.zipWith_map_left, List.zipWith_map_right, List.zipWith_self]

theorem zipWith_cons_injective {α : Type} {heads others : List α} {tails rests : List (List α)}
    (headLength : heads.length = tails.length) (otherLength : others.length = rests.length)
    (equal : List.zipWith List.cons heads tails = List.zipWith List.cons others rests) :
    heads = others ∧ tails = rests := by
  induction heads generalizing others tails rests with
  | nil =>
      have noTails : tails = [] := List.eq_nil_of_length_eq_zero headLength.symm
      cases others <;> cases rests <;> simp_all
  | cons head heads ih =>
      cases tails with
      | nil => simp at headLength
      | cons tail tails =>
          cases others with
          | nil => simp at equal
          | cons other others =>
              cases rests with
              | nil => simp at equal
              | cons rest rests =>
                  simp only [List.zipWith_cons_cons, List.cons.injEq] at equal
                  obtain ⟨⟨sameHead, sameTail⟩, more⟩ := equal
                  have later := ih (by simpa using headLength) (by simpa using otherLength) more
                  simp [sameHead, sameTail, later]

theorem transpose_injective {α : Type} {size : Nat} {lists others : List (List α)}
    (sameCount : lists.length = others.length) (lengths : ∀ list ∈ lists, list.length = size)
    (otherLengths : ∀ other ∈ others, other.length = size)
    (equal : transpose size lists = transpose size others) : lists = others := by
  induction lists generalizing others with
  | nil => exact (List.eq_nil_of_length_eq_zero sameCount.symm).symm
  | cons list lists ih =>
      cases others with
      | nil => simp at sameCount
      | cons other others =>
          obtain ⟨first, rest⟩ := List.forall_mem_cons.mp lengths
          obtain ⟨otherFirst, otherRest⟩ := List.forall_mem_cons.mp otherLengths
          have split := zipWith_cons_injective (by rw [first]; exact (length_transpose rest).symm)
            (by rw [otherFirst]; exact (length_transpose otherRest).symm) equal
          rw [split.1, ih (by simpa using sameCount) rest otherRest split.2]

theorem Column.eq_of_parts {column other : Column} (sameName : column.name = other.name)
    (sameType : column.type = other.type) (sameCells : column.cells = other.cells) :
    column = other := by
  cases column
  cases other
  simp_all

instance (column : Column) : Decidable column.WellTyped :=
  inferInstanceAs (Decidable (∀ cell ∈ column.cells, column.type.accepts cell = true))

namespace Table

variable {table : Table}

theorem wellFormed_iff : table.WellFormed ↔ (table.columns.map Column.name).Nodup ∧
    (∀ column ∈ table.columns, column.cells.length = table.size) ∧
      ∀ column ∈ table.columns, column.WellTyped :=
  ⟨fun wellFormed => ⟨wellFormed.names_distinct, wellFormed.lengths, wellFormed.cells⟩,
    fun ⟨distinct, lengths, cells⟩ => ⟨distinct, lengths, cells⟩⟩

instance : Decidable table.WellFormed :=
  decidable_of_iff' _ wellFormed_iff

theorem WellFormed.lists_length (wellFormed : table.WellFormed) :
    ∀ list ∈ table.columns.map Column.cells, list.length = table.size := by
  intro list member
  obtain ⟨column, present, rfl⟩ := List.mem_map.mp member
  exact wellFormed.lengths column present

theorem WellFormed.length_rows (wellFormed : table.WellFormed) :
    table.rows.length = table.size :=
  length_transpose wellFormed.lists_length

theorem WellFormed.column?_name (wellFormed : table.WellFormed) {column : Column}
    (member : column ∈ table.columns) : table.column? column.name = some column :=
  find?_of_distinct wellFormed.names_distinct member

theorem mem_of_column? {name : String} {column : Column}
    (found : table.column? name = some column) : column ∈ table.columns ∧ column.name = name :=
  ⟨List.mem_of_find?_eq_some found, by simpa using List.find?_some found⟩

theorem length_of_mem_rows {row : List Cell} (member : row ∈ table.rows) :
    row.length = table.names.length := by
  simpa [names] using length_of_mem_transpose member

theorem names_eq_schema (table : Table) : table.names = table.schema.map (·.1) := by
  simp [names, schema, Function.comp_def]

theorem exists_column?_iff {name : String} :
    (∃ column, table.column? name = some column) ↔ name ∈ table.schema.map (·.1) := by
  rw [← names_eq_schema]
  constructor
  · rintro ⟨column, found⟩
    obtain ⟨present, rfl⟩ := mem_of_column? found
    exact List.mem_map_of_mem present
  · intro known
    obtain ⟨column, member, rfl⟩ := List.mem_map.mp known
    refine Option.isSome_iff_exists.mp (List.find?_isSome.mpr ⟨column, member, ?_⟩)
    exact beq_self_eq_true column.name

theorem schema_mapCells (size : Nat) (select : List Cell → List Cell) :
    (table.mapCells size select).schema = table.schema := by
  simp [schema, mapCells, Function.comp_def]

theorem names_mapCells (size : Nat) (select : List Cell → List Cell) :
    (table.mapCells size select).names = table.names := by
  rw [names_eq_schema, names_eq_schema, schema_mapCells]

theorem WellFormed.eq_of_rows {other : Table} (wellFormed : table.WellFormed)
    (otherWellFormed : other.WellFormed) (sameSchema : table.schema = other.schema)
    (sameRows : table.rows = other.rows) : table = other := by
  have sameSize : table.size = other.size := by
    rw [← wellFormed.length_rows, ← otherWellFormed.length_rows, sameRows]
  have sameCount : table.columns.length = other.columns.length := by
    simpa [schema] using congrArg List.length sameSchema
  have sameCells : table.columns.map Column.cells = other.columns.map Column.cells := by
    apply transpose_injective (by simpa using sameCount) wellFormed.lists_length
      (sameSize ▸ otherWellFormed.lists_length)
    simpa [rows, sameSize] using sameRows
  have sameColumns : table.columns = other.columns := by
    apply List.ext_getElem sameCount
    intro index bound otherBound
    have header := List.getElem_of_eq sameSchema (i := index) (by simpa [schema] using bound)
    have cells := List.getElem_of_eq sameCells (i := index) (by simpa using bound)
    simp only [schema, List.getElem_map, Prod.mk.injEq] at header cells
    exact Column.eq_of_parts header.1 header.2 cells
  cases table
  cases other
  simp_all

theorem WellFormed.mapCells (wellFormed : table.WellFormed) {size : Nat}
    {select : List Cell → List Cell}
    (lengths : ∀ cells, cells.length = table.size → (select cells).length = size)
    (selects : ∀ cells, ∀ cell ∈ select cells, cell ∈ cells) :
    (table.mapCells size select).WellFormed where
  names_distinct := by
    have same : (table.mapCells size select).columns.map Column.name = table.names :=
      names_mapCells size select
    rw [same]
    exact wellFormed.names_distinct
  lengths := by
    intro column member
    simp only [Table.mapCells, List.mem_map] at member
    obtain ⟨original, present, rfl⟩ := member
    exact lengths _ (wellFormed.lengths original present)
  cells := by
    intro column member cell inside
    simp only [Table.mapCells, List.mem_map] at member
    obtain ⟨original, present, rfl⟩ := member
    exact wellFormed.cells original present cell (selects _ cell inside)

theorem schema_filter (mask : List Bool) : (table.filter mask).schema = table.schema :=
  schema_mapCells _ _

theorem names_filter (mask : List Bool) : (table.filter mask).names = table.names :=
  names_mapCells _ _

theorem rows_filter (mask : List Bool) : (table.filter mask).rows = keepMarked mask table.rows := by
  rw [rows, rows, keepMarked_transpose]
  simp [filter, mapCells, Function.comp_def]

theorem WellFormed.filter (wellFormed : table.WellFormed) (mask : List Bool) :
    (table.filter mask).WellFormed :=
  wellFormed.mapCells (fun cells length => by rw [length_keepMarked, length])
    fun _ _ => mem_of_mem_keepMarked

theorem schema_take (positions : List Nat) : (table.take positions).schema = table.schema :=
  schema_mapCells _ _

theorem WellFormed.rows_take (wellFormed : table.WellFormed) {positions : List Nat}
    (inRange : ∀ position ∈ positions, position < table.size) :
    (table.take positions).rows = gather positions table.rows := by
  rw [rows, rows, gather_transpose wellFormed.lists_length inRange]
  simp [take, Table.mapCells, Function.comp_def]

theorem WellFormed.take (wellFormed : table.WellFormed) {positions : List Nat}
    (inRange : ∀ position ∈ positions, position < table.size) :
    (table.take positions).WellFormed :=
  wellFormed.mapCells (fun _ length => length_gather (length ▸ inRange)) fun _ _ => mem_of_mem_gather

theorem schema_distinct : table.distinct.schema = table.schema :=
  schema_filter _

theorem rows_distinct : table.distinct.rows = firstsAfter rowKey [] table.rows := by
  rw [distinct, rows_filter, keepMarked_markFirsts]

theorem WellFormed.distinct (wellFormed : table.WellFormed) : table.distinct.WellFormed :=
  wellFormed.filter _

theorem WellFormed.size_distinct (wellFormed : table.WellFormed) :
    table.distinct.size = (firstsAfter rowKey [] table.rows).length := by
  rw [← wellFormed.distinct.length_rows, rows_distinct]

end Table

/-! Cells of a row by the names of the columns. -/

def cellAt (names : List String) (row : List Cell) (name : String) : Option Cell :=
  (names.zip row).lookup name

theorem cellAt_none {columns : List Column} {name : String}
    (absent : columns.find? (·.name == name) = none) (row : List Cell) :
    cellAt (columns.map Column.name) row name = none := by
  rw [cellAt, List.lookup_eq_none_iff]
  intro pair member
  obtain ⟨column, present, same⟩ := List.mem_map.mp (List.of_mem_zip member).1
  have different := List.find?_eq_none.mp absent column present
  simp only [beq_iff_eq, bne_iff_ne] at different ⊢
  exact fun equal => different (by rw [same, equal])

theorem cellAt_transpose {columns : List Column} {size : Nat} {name : String} {column : Column}
    (lengths : ∀ list ∈ columns.map Column.cells, list.length = size)
    (found : columns.find? (·.name == name) = some column) :
    (transpose size (columns.map Column.cells)).map
        (fun row => cellAt (columns.map Column.name) row name) = column.cells.map some := by
  induction columns with
  | nil => simp at found
  | cons first columns ih =>
      obtain ⟨firstLength, rest⟩ := List.forall_mem_cons.mp lengths
      have restLength := length_transpose rest
      simp only [transpose] at restLength
      simp only [transpose, List.map_cons, List.foldr_cons, List.map_zipWith]
      by_cases same : first.name = name
      · simp only [List.find?_cons, same, beq_self_eq_true, Option.some.injEq] at found
        subst found
        apply List.ext_getElem
        · simp [restLength, firstLength]
        · intro position leftBound rightBound
          simp [cellAt, same]
      · have differs : (name == first.name) = false := by simpa using Ne.symm same
        have later : columns.find? (·.name == name) = some column := by
          simpa [List.find?_cons, same] using found
        rw [← ih rest later]
        apply List.ext_getElem
        · simp [transpose, restLength, firstLength]
        · intro position leftBound rightBound
          simp [transpose, cellAt, List.lookup_cons, differs]

namespace Table

variable {table : Table}

theorem WellFormed.map_cellAt (wellFormed : table.WellFormed) {name : String} {column : Column}
    (found : table.column? name = some column) :
    table.rows.map (fun row => cellAt table.names row name) = column.cells.map some :=
  cellAt_transpose wellFormed.lists_length found

theorem cellAt_eq_none {name : String} (absent : table.column? name = none) (row : List Cell) :
    cellAt table.names row name = none :=
  cellAt_none absent row

end Table

end TableSieve
