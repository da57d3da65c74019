import TableSieve.Proofs.Rows

/-!
Appending tables. A table is first aligned with the one above it: its columns are found by name and
their cells cast to the types of the joined columns. Where that succeeds, the rows of the aligned
table come below the rows of the upper one, which stay as they are.
-/

namespace TableSieve

theorem Cell.type?_eq_none_iff {cell : Cell} : cell.type? = none ↔ cell.isMissing = true := by
  cases cell <;> simp [type?, isMissing]

theorem Cell.type?_of_accepts {type : CellType} {cell : Cell} (accepted : type.accepts cell = true)
    (present : cell.isMissing = false) : cell.type? = some type := by
  cases cell <;> simp_all [CellType.accepts, type?, isMissing]

namespace CellType

theorem accepts_of_missing {cell : Cell} (missing : cell.isMissing = true) (type : CellType) :
    type.accepts cell = true := by
  simp [accepts, Cell.type?_eq_none_iff.mpr missing]

theorem cast?_of_accepts {type : CellType} {cell : Cell} (accepted : type.accepts cell = true) :
    type.cast? cell = some cell := by
  cases type <;> cases cell <;> simp_all [cast?, accepts, Cell.type?]

theorem accepts_of_cast? {type : CellType} {cell fit : Cell} (cast : type.cast? cell = some fit) :
    type.accepts fit = true := by
  unfold cast? at cast
  split at cast
  · obtain rfl := Option.some.inj cast
    simp only [accepts, Cell.type?]
    split <;> simp_all
  · split at cast
    · rename_i accepted
      obtain rfl := Option.some.inj cast
      exact accepted
    · simp at cast

end CellType

namespace Column

theorem castCells_eq_ok_iff {type : CellType} {row : Nat} {cells fit : List Cell} :
    castCells type row cells = .ok fit ↔ cells.mapM type.cast? = some fit := by
  induction cells generalizing row fit with
  | nil => simp [castCells, eq_comm]
  | cons cell cells ih =>
      cases cast : type.cast? cell with
      | none => simp [castCells, cast, List.mapM_cons]
      | some first =>
          simp only [castCells, cast, List.mapM_cons, Option.bind_eq_bind, Option.bind_some]
          cases rest : castCells type (row + 1) cells with
          | error fault =>
              have fails : cells.mapM type.cast? = none := by
                rw [Option.eq_none_iff_forall_ne_some]
                intro others found
                simp [ih.mpr found] at rest
              simp [fails, Except.map]
          | ok others => simp [ih.mp rest, Except.map]

theorem toOption_ofCells (name : String) (type : CellType) (cells : List Cell) :
    (ofCells name type cells).toOption = (cells.mapM type.cast?).map (Column.mk name type) := by
  cases cast : castCells type 0 cells with
  | ok fit => simp [ofCells, cast, castCells_eq_ok_iff.mp cast, Except.toOption]
  | error fault =>
      have fails : cells.mapM type.cast? = none := by
        rw [Option.eq_none_iff_forall_ne_some]
        intro others found
        simp [castCells_eq_ok_iff.mpr found] at cast
      simp [ofCells, cast, fails, Except.toOption]

theorem ofCells_eq_ok_iff {name : String} {type : CellType} {cells : List Cell} {column : Column} :
    ofCells name type cells = .ok column ↔
      ∃ fit, cells.mapM type.cast? = some fit ∧ column = ⟨name, type, fit⟩ := by
  have cast : ∀ fit, cells.mapM type.cast? = some fit ↔ castCells type 0 cells = .ok fit :=
    fun _ => castCells_eq_ok_iff.symm
  simp only [cast, ofCells]
  cases castCells type 0 cells <;> simp [eq_comm]

theorem mapM_cast?_of_accepts {type : CellType} {cells : List Cell}
    (accepted : ∀ cell ∈ cells, type.accepts cell = true) :
    cells.mapM type.cast? = some cells := by
  rw [mapM_eq_some_iff]
  exact List.map_congr_left fun cell member => CellType.cast?_of_accepts (accepted cell member)

theorem accepts_of_mapM_cast? {type : CellType} {cells fit : List Cell}
    (cast : cells.mapM type.cast? = some fit) : ∀ cell ∈ fit, type.accepts cell = true := by
  intro cell member
  have matched : some cell ∈ cells.map type.cast? := by
    rw [mapM_eq_some_iff.mp cast]
    exact List.mem_map_of_mem member
  obtain ⟨original, _, found⟩ := List.mem_map.mp matched
  exact CellType.accepts_of_cast? found

def joinedType (upper lower : Column) : CellType :=
  if upper.allMissing then lower.type else upper.type

theorem WellTyped.accepts_joinedType {upper : Column} (wellTyped : upper.WellTyped)
    (lower : Column) : ∀ cell ∈ upper.cells, (upper.joinedType lower).accepts cell = true := by
  intro cell member
  unfold joinedType
  split
  · rename_i missing
    exact CellType.accepts_of_missing (List.all_eq_true.mp missing cell member) lower.type
  · exact wellTyped cell member

end Column

namespace Table

def alignColumn? (lower : Table) (column : Column) : Option Column :=
  (lower.column? column.name).bind fun incoming =>
    (incoming.cells.mapM (column.joinedType incoming).cast?).map fun fit =>
      ⟨column.name, column.joinedType incoming, fit⟩

/-- The lower table in the shape in which it goes below the upper one. -/
def align? (upper lower : Table) : Option Table :=
  if upper.columns.length = lower.columns.length then
    (upper.columns.mapM lower.alignColumn?).map fun columns => ⟨columns, lower.size⟩
  else none

def putBelow (above aligned : Column) : Column :=
  ⟨above.name, aligned.type, above.cells ++ aligned.cells⟩

def stack (upper aligned : Table) : Table :=
  ⟨List.zipWith putBelow upper.columns aligned.columns, upper.size + aligned.size⟩

theorem toOption_joinColumn {upper lower : Column} (wellTyped : upper.WellTyped) :
    (joinColumn upper lower).toOption =
      (lower.cells.mapM (upper.joinedType lower).cast?).map fun fit =>
        ⟨upper.name, upper.joinedType lower, upper.cells ++ fit⟩ := by
  have above := Column.mapM_cast?_of_accepts (wellTyped.accepts_joinedType lower)
  show (Column.ofCells upper.name (upper.joinedType lower) (upper.cells ++ lower.cells)).toOption = _
  rw [Column.toOption_ofCells, List.mapM_append, above]
  cases lower.cells.mapM (upper.joinedType lower).cast? <;> rfl

theorem toOption_joinBelow {upper : Column} (wellTyped : upper.WellTyped) (lower : Table) :
    (lower.joinBelow upper).toOption = (lower.alignColumn? upper).map (putBelow upper) := by
  cases found : lower.column? upper.name with
  | none => simp [joinBelow, alignColumn?, found, Except.toOption]
  | some incoming =>
      simp [joinBelow, alignColumn?, found, toOption_joinColumn wellTyped, putBelow,
        Function.comp_def]

theorem toOption_concat {upper : Table} (wellFormed : upper.WellFormed) (lower : Table) :
    (upper.concat lower).toOption = (upper.align? lower).map upper.stack := by
  have columns : (upper.columns.mapM lower.joinBelow).toOption =
      (upper.columns.mapM lower.alignColumn?).map (List.zipWith putBelow upper.columns) := by
    rw [toOption_mapM, ← mapM_option_map]
    exact mapM_option_congr fun column member =>
      toOption_joinBelow (wellFormed.cells column member) lower
  by_cases sameCount : upper.columns.length = lower.columns.length
  · simp only [concat, align?, sameCount, ne_eq, not_true_eq_false, if_false, if_true,
      Option.map_map]
    cases joined : upper.columns.mapM lower.joinBelow with
    | error error =>
        rw [joined] at columns
        cases aligned : upper.columns.mapM lower.alignColumn? with
        | none => rfl
        | some below => simp [aligned, Except.toOption] at columns
    | ok all =>
        rw [joined] at columns
        cases aligned : upper.columns.mapM lower.alignColumn? with
        | none => simp [aligned, Except.toOption] at columns
        | some below =>
            simp only [aligned, Except.toOption, Option.map_some, Option.some.injEq] at columns
            simp [bind, Except.bind, Except.toOption, stack, columns]
  · simp [concat, align?, sameCount, Except.toOption]

structure Aligned (upper aligned : Table) : Prop where
  wellFormed : aligned.WellFormed
  names : aligned.names = upper.names
  accepts : ∀ pair ∈ upper.columns.zip aligned.columns,
    ∀ cell ∈ pair.1.cells, pair.2.type.accepts cell = true

theorem alignColumn?_eq_some {lower : Table} {column below : Column}
    (aligned : lower.alignColumn? column = some below) :
    ∃ incoming ∈ lower.columns, lower.column? column.name = some incoming ∧
      below.name = column.name ∧ below.type = column.joinedType incoming ∧
      incoming.cells.mapM below.type.cast? = some below.cells := by
  simp only [alignColumn?, Option.bind_eq_some_iff, Option.map_eq_some_iff] at aligned
  obtain ⟨incoming, found, fit, cast, rfl⟩ := aligned
  exact ⟨incoming, (mem_of_column? found).1, found, rfl, rfl, cast⟩

theorem align?_eq_some {upper lower aligned : Table}
    (found : upper.align? lower = some aligned) :
    upper.columns.length = lower.columns.length ∧
      upper.columns.mapM lower.alignColumn? = some aligned.columns ∧
      aligned.size = lower.size := by
  unfold align? at found
  split at found
  · rename_i sameCount
    obtain ⟨columns, visited, rfl⟩ := Option.map_eq_some_iff.mp found
    exact ⟨sameCount, visited, rfl⟩
  · simp at found

theorem WellFormed.aligned {upper lower aligned : Table} (wellFormed : upper.WellFormed)
    (lowerWellFormed : lower.WellFormed) (found : upper.align? lower = some aligned) :
    Aligned upper aligned := by
  obtain ⟨_, visited, size⟩ := align?_eq_some found
  have sameNames : aligned.names = upper.names := by
    refine (map_eq_of_mapM visited ?_).symm
    intro column below align
    obtain ⟨_, _, _, name, _⟩ := alignColumn?_eq_some align
    exact name.symm
  have columnOf : ∀ below ∈ aligned.columns, ∃ incoming ∈ lower.columns,
      incoming.cells.mapM below.type.cast? = some below.cells := by
    intro below member
    have visitedBelow : some below ∈ upper.columns.map lower.alignColumn? := by
      rw [mapM_eq_some_iff.mp visited]
      exact List.mem_map_of_mem member
    obtain ⟨column, _, align⟩ := List.mem_map.mp visitedBelow
    obtain ⟨incoming, present, _, _, _, cast⟩ := alignColumn?_eq_some align
    exact ⟨incoming, present, cast⟩
  refine ⟨⟨?_, ?_, ?_⟩, sameNames, ?_⟩
  · have distinct : aligned.names.Nodup := sameNames ▸ wellFormed.names_distinct
    exact distinct
  · intro below member
    obtain ⟨incoming, present, cast⟩ := columnOf below member
    rw [length_of_mapM cast, lowerWellFormed.lengths incoming present, size]
  · intro below member
    obtain ⟨incoming, present, cast⟩ := columnOf below member
    exact Column.accepts_of_mapM_cast? cast
  · intro pair member
    obtain ⟨incoming, _, _, _, type, _⟩ :=
      alignColumn?_eq_some (of_mem_zip_of_mapM visited pair member)
    rw [type]
    exact (wellFormed.cells pair.1 (List.of_mem_zip member).1).accepts_joinedType incoming

namespace Aligned

variable {upper aligned : Table}

theorem sameCount (below : Aligned upper aligned) :
    upper.columns.length = aligned.columns.length := by
  simpa [Table.names] using (congrArg List.length below.names).symm

theorem schema_stack (below : Aligned upper aligned) :
    (upper.stack aligned).schema = aligned.schema := by
  have sameNames := below.names
  have sameCount := below.sameCount
  apply List.ext_getElem
  · simp [schema, stack, sameCount]
  · intro index bound otherBound
    simp only [schema, List.length_map] at otherBound
    have name := List.getElem_of_eq sameNames (i := index) (by simpa [Table.names] using otherBound)
    simp only [Table.names, List.getElem_map] at name
    simp [schema, stack, putBelow, name]

theorem names_stack (below : Aligned upper aligned) :
    (upper.stack aligned).names = upper.names := by
  rw [names_eq_schema, below.schema_stack, ← names_eq_schema, below.names]

theorem rows_stack (below : Aligned upper aligned) (wellFormed : upper.WellFormed) :
    (upper.stack aligned).rows = upper.rows ++ aligned.rows := by
  have sameCount := below.sameCount
  rw [rows, rows, rows, ← transpose_append aligned.size wellFormed.lists_length (by simp [sameCount])]
  simp [stack, List.map_zipWith, List.zipWith_map, putBelow]

theorem wellFormed_stack (below : Aligned upper aligned) (wellFormed : upper.WellFormed) :
    (upper.stack aligned).WellFormed := by
  have pairOf : ∀ column ∈ (upper.stack aligned).columns,
      ∃ pair ∈ upper.columns.zip aligned.columns, column = putBelow pair.1 pair.2 := by
    intro column member
    simp only [stack, ← List.map_uncurry_zip_eq_zipWith, List.mem_map] at member
    obtain ⟨pair, zipped, rfl⟩ := member
    exact ⟨pair, zipped, rfl⟩
  refine ⟨?_, ?_, ?_⟩
  · have distinct : (upper.stack aligned).names.Nodup := below.names_stack ▸ wellFormed.names_distinct
    exact distinct
  · intro column member
    obtain ⟨pair, zipped, rfl⟩ := pairOf column member
    obtain ⟨above, under⟩ := List.of_mem_zip zipped
    simp [putBelow, stack, wellFormed.lengths _ above, below.wellFormed.lengths _ under]
  · intro column member cell inside
    obtain ⟨pair, zipped, rfl⟩ := pairOf column member
    obtain ⟨above, under⟩ := List.of_mem_zip zipped
    rcases List.mem_append.mp inside with fromAbove | fromBelow
    · exact below.accepts pair zipped cell fromAbove
    · exact below.wellFormed.cells pair.2 under cell fromBelow

end Aligned

theorem WellFormed.concat {upper lower joined : Table} (wellFormed : upper.WellFormed)
    (lowerWellFormed : lower.WellFormed) (done : upper.concat lower = .ok joined) :
    joined.WellFormed := by
  have stacked := toOption_concat wellFormed lower
  rw [done] at stacked
  obtain ⟨aligned, found, rfl⟩ := Option.map_eq_some_iff.mp stacked.symm
  exact (wellFormed.aligned lowerWellFormed found).wellFormed_stack wellFormed

theorem align?_of_schema {upper lower : Table} (lowerWellFormed : lower.WellFormed)
    (sameSchema : upper.schema = lower.schema) :
    upper.align? lower = some lower := by
  have sameCount : upper.columns.length = lower.columns.length := by
    simpa [schema] using congrArg List.length sameSchema
  have visited : upper.columns.mapM lower.alignColumn? = some lower.columns := by
    rw [mapM_eq_some_iff]
    apply List.ext_getElem (by simpa using sameCount)
    intro index bound otherBound
    simp only [List.length_map] at bound otherBound
    have header := List.getElem_of_eq sameSchema (i := index) (by simpa [schema] using bound)
    simp only [schema, List.getElem_map, Prod.mk.injEq] at header
    have member : lower.columns[index] ∈ lower.columns := List.getElem_mem otherBound
    have sameType : upper.columns[index].joinedType lower.columns[index] =
        lower.columns[index].type := by
      simp [Column.joinedType, header.2]
    have cast := Column.mapM_cast?_of_accepts (lowerWellFormed.cells _ member)
    simp only [List.getElem_map, alignColumn?, header.1, lowerWellFormed.column?_name member,
      Option.bind_some, sameType, cast, Option.map_some]
  simp [align?, sameCount, visited]

theorem WellFormed.concat_of_schema {upper lower : Table} (wellFormed : upper.WellFormed)
    (lowerWellFormed : lower.WellFormed) (sameSchema : upper.schema = lower.schema) :
    ∃ joined, upper.concat lower = .ok joined ∧ joined.WellFormed ∧
      joined.schema = upper.schema ∧ joined.rows = upper.rows ++ lower.rows := by
  have found := align?_of_schema lowerWellFormed sameSchema
  have below := wellFormed.aligned lowerWellFormed found
  have joined := toOption_concat wellFormed lower
  rw [found, Option.map_some] at joined
  refine ⟨upper.stack lower, ?_, below.wellFormed_stack wellFormed, ?_, below.rows_stack wellFormed⟩
  · cases result : upper.concat lower with
    | error error => simp [result, Except.toOption] at joined
    | ok table => simpa [result, Except.toOption] using joined
  · rw [below.schema_stack, sameSchema]

theorem WellFormed.foldlM_concat {upper : Table} {lowers : List Table}
    (wellFormed : upper.WellFormed)
    (lowersWellFormed : ∀ lower ∈ lowers, lower.WellFormed ∧ lower.schema = upper.schema) :
    ∃ joined, lowers.foldlM Table.concat upper = .ok joined ∧ joined.WellFormed ∧
      joined.schema = upper.schema ∧ joined.rows = upper.rows ++ lowers.flatMap rows := by
  induction lowers generalizing upper with
  | nil => exact ⟨upper, rfl, wellFormed, rfl, by simp⟩
  | cons lower lowers ih =>
      obtain ⟨⟨lowerWellFormed, lowerSchema⟩, rest⟩ := List.forall_mem_cons.mp lowersWellFormed
      obtain ⟨first, firstOk, firstWellFormed, firstSchema, firstRows⟩ :=
        wellFormed.concat_of_schema lowerWellFormed lowerSchema.symm
      obtain ⟨joined, joinedOk, joinedWellFormed, joinedSchema, joinedRows⟩ :=
        ih firstWellFormed fun other member =>
          ⟨(rest other member).1, (rest other member).2.trans firstSchema.symm⟩
      refine ⟨joined, ?_, joinedWellFormed, joinedSchema.trans firstSchema, ?_⟩
      · rw [List.foldlM_cons, firstOk]
        exact joinedOk
      · rw [joinedRows, firstRows, List.flatMap_cons, List.append_assoc]

theorem WellFormed.foldlM_concat_eq {whole upper : Table} {lowers : List Table}
    (wholeWellFormed : whole.WellFormed) (wellFormed : upper.WellFormed)
    (lowersWellFormed : ∀ lower ∈ lowers, lower.WellFormed ∧ lower.schema = upper.schema)
    (sameSchema : whole.schema = upper.schema)
    (sameRows : whole.rows = (upper :: lowers).flatMap rows) :
    lowers.foldlM Table.concat upper = .ok whole := by
  obtain ⟨joined, joinedOk, joinedWellFormed, joinedSchema, joinedRows⟩ :=
    wellFormed.foldlM_concat lowersWellFormed
  have same : joined = whole :=
    joinedWellFormed.eq_of_rows wholeWellFormed (joinedSchema.trans sameSchema.symm)
      (by rw [joinedRows, sameRows, List.flatMap_cons])
  rw [joinedOk, same]

theorem align?_filter {upper : Table} {mask : List Bool} (lower : Table)
    (sameMissing : ∀ column ∈ upper.columns,
      (keepMarked mask column.cells).all Cell.isMissing = column.allMissing) :
    (upper.filter mask).align? lower = upper.align? lower := by
  have aligned : (upper.filter mask).columns.mapM lower.alignColumn? =
      upper.columns.mapM lower.alignColumn? := by
    simp only [filter, mapCells, List.mapM_map]
    apply mapM_option_congr
    intro column member
    have same : ∀ incoming, Column.joinedType { column with cells := keepMarked mask column.cells }
        incoming = column.joinedType incoming := by
      intro incoming
      simp [Column.joinedType, Column.allMissing, sameMissing column member]
    simp [alignColumn?, same]
  have sameCount : (upper.filter mask).columns.length = upper.columns.length := by
    simp [filter, mapCells]
  rw [align?, align?, aligned, sameCount]

end Table

end TableSieve
