import TableSieve.Proofs.Narrowing
import TableSieve.Proofs.RowEvaluation

/-!
Filtering one row at a time. Every step of a constraint acts on the rows of a table each for itself,
so a row has a fate of its own: it stays, perhaps with other cells, or it goes, or a sum fails on it.
Only the last tells on the other rows. Unless it happens, filtering commutes with splitting a table.
-/

namespace TableSieve

inductive RowFate
  | kept (row : List Cell)
  | dropped
  | stuck
  deriving DecidableEq

namespace RowFate

def keepIf (keep : Bool) (row : List Cell) : RowFate :=
  if keep then .kept row else .dropped

def row? : RowFate → Option (List Cell)
  | .kept row => some row
  | _ => none

def andThen (fate : RowFate) (next : List Cell → RowFate) : RowFate :=
  match fate with
  | .kept row => next row
  | other => other

def steps {α : Type} (fate : α → List Cell → RowFate) : List α → List Cell → RowFate
  | [], row => .kept row
  | item :: rest, row => (fate item row).andThen (steps fate rest)

theorem row?_keepIf (keep : Bool) (row : List Cell) :
    (keepIf keep row).row? = if keep then some row else none := by
  cases keep <;> rfl

theorem row?_andThen (fate : RowFate) (next : List Cell → RowFate) :
    (fate.andThen next).row? = fate.row?.bind fun row => (next row).row? := by
  cases fate <;> rfl

theorem andThen_eq_stuck_iff {fate : RowFate} {next : List Cell → RowFate} :
    fate.andThen next = .stuck ↔
      fate = .stuck ∨ ∃ row, fate.row? = some row ∧ next row = .stuck := by
  cases fate <;> simp [andThen, row?]

end RowFate

theorem Table.rows_filter_map (table : Table) (test : List Cell → Bool) :
    (table.filter (table.rows.map test)).rows =
      table.rows.filterMap fun row => if test row then some row else none := by
  rw [Table.rows_filter, keepMarked_map_marks, ← List.filterMap_eq_filter]
  rfl

def Filtering.BadSum (filtering : Filtering) : Prop :=
  ∃ warning ∈ filtering.warnings, warning.code = "invalid_sum"

/-- The filtering of a table gives its rows these fates. -/
structure Acts (fate : List Cell → RowFate) (table : Table) (filtering : Filtering) : Prop where
  stuck : filtering.BadSum ↔ ∃ row ∈ table.rows, fate row = .stuck
  rows : ¬filtering.BadSum → ∃ narrowed, filtering.result = .ok narrowed ∧
    narrowed.rows = table.rows.filterMap fun row => (fate row).row?

namespace Acts

variable {table : Table}

theorem of_rows {fate : List Cell → RowFate} {filtering : Filtering} {narrowed : Table}
    (harmless : ∀ warning ∈ filtering.warnings, warning.code ≠ "invalid_sum")
    (never : ∀ row, fate row ≠ .stuck) (given : filtering.result = .ok narrowed)
    (rows : narrowed.rows = table.rows.filterMap fun row => (fate row).row?) :
    Acts fate table filtering where
  stuck := by
    refine ⟨?_, fun ⟨row, _, stuck⟩ => absurd stuck (never row)⟩
    rintro ⟨warning, member, code⟩
    exact absurd code (harmless warning member)
  rows _ := ⟨narrowed, given, rows⟩

theorem keep {filtering : Filtering}
    (harmless : ∀ warning ∈ filtering.warnings, warning.code ≠ "invalid_sum")
    (given : filtering.result = .ok table) : Acts .kept table filtering :=
  of_rows harmless (by simp) given (by simp [RowFate.row?])

theorem filter (test : List Cell → Bool) :
    Acts (fun row => .keepIf (test row) row) table
      (.done (table.filter (table.rows.map test))) := by
  refine of_rows (by simp [Filtering.done]) ?_ rfl ?_
  · intro row
    unfold RowFate.keepIf
    split <;> simp
  · simp only [table.rows_filter_map, RowFate.row?_keepIf]

theorem badSum_andThen {first : Filtering} {next : Table → Filtering} :
    (first.andThen next).BadSum ↔
      first.BadSum ∨ ∃ between, first.result = .ok between ∧ (next between).BadSum := by
  unfold Filtering.andThen
  cases given : first.result with
  | error error => simp
  | ok between =>
      simp only [Filtering.BadSum, List.mem_append, Except.ok.injEq, exists_eq_left']
      constructor
      · rintro ⟨warning, early | late, code⟩
        · exact Or.inl ⟨warning, early, code⟩
        · exact Or.inr ⟨warning, late, code⟩
      · rintro (⟨warning, early, code⟩ | ⟨warning, late, code⟩)
        · exact ⟨warning, Or.inl early, code⟩
        · exact ⟨warning, Or.inr late, code⟩

theorem andThen {codes : List String} {fate nextFate : List Cell → RowFate} {first : Filtering}
    {next : Table → Filtering} (narrows : Narrows codes table first)
    (acts : Acts fate table first)
    (nextActs : ∀ between, between.WellFormed → between.schema = table.schema →
      Acts nextFate between (next between)) :
    Acts (fun row => (fate row).andThen nextFate) table (first.andThen next) := by
  by_cases firstBad : first.BadSum
  · obtain ⟨row, member, stuck⟩ := acts.stuck.mp firstBad
    have bad : (first.andThen next).BadSum := badSum_andThen.mpr (Or.inl firstBad)
    refine ⟨iff_of_true bad ⟨row, member, ?_⟩, fun good => absurd bad good⟩
    exact RowFate.andThen_eq_stuck_iff.mpr (Or.inl stuck)
  · obtain ⟨between, given, betweenRows⟩ := acts.rows firstBad
    obtain ⟨wellFormed, sameSchema⟩ := narrows.keeps between given
    have later := nextActs between wellFormed sameSchema
    have sameBad : (first.andThen next).BadSum ↔ (next between).BadSum := by
      simp [badSum_andThen, firstBad, given]
    have notStuck : ∀ row ∈ table.rows, fate row ≠ .stuck :=
      fun row member stuck => firstBad (acts.stuck.mpr ⟨row, member, stuck⟩)
    refine ⟨?_, fun good => ?_⟩
    · rw [sameBad, later.stuck, betweenRows]
      constructor
      · rintro ⟨left, member, stuck⟩
        obtain ⟨row, present, leaves⟩ := List.mem_filterMap.mp member
        exact ⟨row, present, RowFate.andThen_eq_stuck_iff.mpr (Or.inr ⟨left, leaves, stuck⟩)⟩
      · rintro ⟨row, present, stuck⟩
        rcases RowFate.andThen_eq_stuck_iff.mp stuck with now | ⟨left, leaves, stuck⟩
        · exact absurd now (notStuck row present)
        · exact ⟨left, List.mem_filterMap.mpr ⟨row, present, leaves⟩, stuck⟩
    · obtain ⟨narrowed, nextOk, narrowedRows⟩ := later.rows fun bad => good (sameBad.mpr bad)
      refine ⟨narrowed, by simp [Filtering.andThen, given, nextOk], ?_⟩
      rw [narrowedRows, betweenRows, List.filterMap_filterMap]
      simp only [RowFate.row?_andThen]

theorem steps {α : Type} {codes : List String} {schema : List (String × CellType)}
    {step : α → Table → Filtering} {fate : α → List Cell → RowFate} {items : List α}
    (narrows : ∀ item table, table.WellFormed → Narrows codes table (step item table))
    (acts : ∀ item ∈ items, ∀ table, table.WellFormed → table.schema = schema →
      Acts (fate item) table (step item table))
    (wellFormed : table.WellFormed) (sameSchema : table.schema = schema) :
    Acts (RowFate.steps fate items) table (Filtering.steps step items table) := by
  induction items generalizing table with
  | nil => exact keep (by simp [Filtering.steps, Filtering.done]) rfl
  | cons item items ih =>
      obtain ⟨first, rest⟩ := List.forall_mem_cons.mp acts
      refine andThen (narrows item table wellFormed) (first table wellFormed sameSchema) ?_
      intro between betweenWellFormed betweenSchema
      exact ih rest betweenWellFormed (betweenSchema.trans sameSchema)

end Acts

/-! Fields of a row, and rows with a field set. -/

def fieldOf (schema : List (String × CellType)) (row : List Cell) (name : String) : Cell :=
  (cellAt (schema.map (·.1)) row name).getD .null

def setField (schema : List (String × CellType)) (name : String) (cell : Cell) (row : List Cell) :
    List Cell :=
  List.zipWith (fun other old => if other == name then cell else old) (schema.map (·.1)) row

theorem transpose_setCells {columns : List Column} {size : Nat} {cells : List Cell}
    (name : String) (lengths : ∀ list ∈ columns.map Column.cells, list.length = size)
    (length : cells.length = size) :
    transpose size (columns.map fun other => if other.name == name then cells else other.cells) =
      List.zipWith
        (fun cell row => List.zipWith (fun other old => if other == name then cell else old)
          (columns.map Column.name) row)
        cells (transpose size (columns.map Column.cells)) := by
  induction columns with
  | nil =>
      apply List.ext_getElem
      · simp [transpose, length]
      · intro index leftBound rightBound
        simp [transpose]
  | cons column columns ih =>
      obtain ⟨first, rest⟩ := List.forall_mem_cons.mp lengths
      have restLength := length_transpose rest
      simp only [transpose] at ih restLength
      simp only [transpose, List.map_cons, List.foldr_cons, ih rest]
      apply List.ext_getElem
      · split <;> simp [length, first, restLength]
      · intro index leftBound rightBound
        by_cases same : column.name = name <;> simp [same]

namespace Table

variable {table : Table}

theorem WellFormed.rows_setCells (wellFormed : table.WellFormed) {cells : List Cell}
    (length : cells.length = table.size) (name : String) :
    (table.setCells name cells).rows =
      List.zipWith (setField table.schema name) cells table.rows := by
  have cellLists : (table.setCells name cells).columns.map Column.cells =
      table.columns.map fun other => if other.name == name then cells else other.cells := by
    simp only [Table.setCells, List.map_map]
    apply List.map_congr_left
    intro other _
    simp only [Function.comp_apply]
    split <;> rfl
  have fields : table.schema.map (·.1) = table.columns.map Column.name :=
    (names_eq_schema table).symm
  rw [rows, rows, cellLists]
  unfold setField
  rw [fields]
  exact transpose_setCells name wellFormed.lists_length length

theorem WellFormed.cells_eq_map (wellFormed : table.WellFormed) {name : String} {column : Column}
    (found : table.column? name = some column) :
    column.cells = table.rows.map fun row => fieldOf table.schema row name := by
  have cells := congrArg (List.map fun cell? : Option Cell => cell?.getD .null)
    (wellFormed.map_cellAt found)
  simpa [Function.comp_def, fieldOf, names_eq_schema] using cells.symm

theorem WellFormed.onRow_eq_some (wellFormed : table.WellFormed) {row : List Cell}
    (member : row ∈ table.rows) {name : String} (known : name ∈ table.schema.map (·.1)) :
    table.onRow row name = some (fieldOf table.schema row name) := by
  obtain ⟨column, found⟩ := exists_column?_iff.mpr known
  have listed := List.mem_map_of_mem (f := fun row => cellAt table.names row name) member
  rw [wellFormed.map_cellAt found] at listed
  obtain ⟨cell, _, given⟩ := List.mem_map.mp listed
  rw [onRow, fieldOf, ← names_eq_schema, ← given, Option.getD_some]

theorem WellFormed.rows_setCells_zipWith (wellFormed : table.WellFormed) {main related : String}
    {source target : Column} (sourceFound : table.column? main = some source)
    (targetFound : table.column? related = some target) (join : Cell → Cell → Cell) :
    (table.setCells related (List.zipWith join source.cells target.cells)).rows =
      table.rows.map fun row => setField table.schema related
        (join (fieldOf table.schema row main) (fieldOf table.schema row related)) row := by
  have sourceLength := wellFormed.lengths source (mem_of_column? sourceFound).1
  have targetLength := wellFormed.lengths target (mem_of_column? targetFound).1
  rw [wellFormed.rows_setCells (by simp [sourceLength, targetLength]),
    wellFormed.cells_eq_map sourceFound, wellFormed.cells_eq_map targetFound]
  simp [List.zipWith_map_left, List.zipWith_map_right, List.zipWith_self]

theorem lookup_schema {name : String} {column : Column}
    (found : table.column? name = some column) : table.schema.lookup name = some column.type := by
  have looked := lookup_map Column.name Column.type table.columns name
  unfold column? at found
  rwa [found] at looked

theorem columns_of_known {fields : List String}
    (known : ∀ field ∈ fields, field ∈ table.schema.map (·.1)) :
    ∃ columns, fields.mapM table.column = .ok columns ∧
      fields.map table.column? = columns.map some := by
  induction fields with
  | nil => exact ⟨[], rfl, rfl⟩
  | cons field fields ih =>
      obtain ⟨first, rest⟩ := List.forall_mem_cons.mp known
      obtain ⟨column, found⟩ := exists_column?_iff.mpr first
      obtain ⟨columns, visited, same⟩ := ih rest
      refine ⟨column :: columns, ?_, by rw [List.map_cons, List.map_cons, found, same]⟩
      rw [mapM_eq_ok_iff] at visited ⊢
      simp [visited, column_eq_ok_iff.mpr found]

theorem WellFormed.transpose_fields (wellFormed : table.WellFormed) {fields : List String}
    {columns : List Column} (found : fields.map table.column? = columns.map some) :
    transpose table.size (columns.map Column.cells) =
      table.rows.map fun row => fields.map (fieldOf table.schema row) := by
  induction fields generalizing columns with
  | nil =>
      have none : columns = [] := by simpa using found.symm
      simp [none, transpose, List.map_const', wellFormed.length_rows]
  | cons field fields ih =>
      cases columns with
      | nil => simp at found
      | cons column columns =>
          simp only [List.map_cons, List.cons.injEq] at found
          have rest := ih found.2
          simp only [transpose] at rest
          simp only [transpose, List.map_cons, List.foldr_cons, rest,
            wellFormed.cells_eq_map found.1]
          simp [List.zipWith_map_left, List.zipWith_map_right, List.zipWith_self]

end Table

/-! The fates of rows under the constraints. -/

variable {table : Table}

namespace Formula

def fate (schema : List (String × CellType)) (formula : Formula) (row : List Cell) : RowFate :=
  match formula.holdsOn (cellAt (schema.map (·.1)) row) with
  | .ok holds => .keepIf holds row
  | .error (.badSum _) => .stuck
  | .error _ => .dropped

theorem row?_fate (schema : List (String × CellType)) (formula : Formula) (row : List Cell) :
    (formula.fate schema row).row? =
      if (formula.holdsOn (cellAt (schema.map (·.1)) row)).toOption = some true then some row
      else none := by
  unfold fate
  split
  · rename_i holds given
    cases holds <;> simp [given, RowFate.keepIf, RowFate.row?, Except.toOption]
  · rename_i given
    simp [given, RowFate.row?, Except.toOption]
  · rename_i given
    simp [given, RowFate.row?, Except.toOption]

theorem badSum_mem_issues_iff (wellFormed : table.WellFormed) (formula : Formula) :
    (∃ sum, .badSum sum ∈ (formula.evaluate table).issues) ↔
      ∃ row ∈ table.rows, ∃ sum, formula.holdsOn (table.onRow row) = .error (.badSum sum) := by
  have agrees := marksOf_agrees wellFormed formula
  have never : ∀ sum, .badSum sum ∉ (formula.mask table).issues := by
    intro sum member
    have fatal := isFatal_of_mem_issues member
    simp [Issue.isFatal] at fatal
  generalize found : marksOf table formula = result at agrees
  cases agrees with
  | values same =>
      rw [(evaluate_of_marksOf_ok found).2]
      refine iff_of_false (not_exists.mpr never) ?_
      rintro ⟨row, member, sum, failed⟩
      have listed := List.mem_map_of_mem (f := fun row => formula.holdsOn (table.onRow row)) member
      rw [same] at listed
      obtain ⟨holds, _, given⟩ := List.mem_map.mp listed
      simp [failed] at given
  | @badSum failing row member fails =>
      rw [(evaluate_of_marksOf_error found).2]
      exact iff_of_true ⟨failing, by simp⟩ ⟨row, member, failing, fails⟩
  | @everywhere issue fatal notSum fails =>
      rw [(evaluate_of_marksOf_error found).2]
      refine iff_of_false ?_ ?_
      · rintro ⟨sum, member⟩
        rcases List.mem_append.mp member with early | last
        · exact never sum early
        · exact notSum sum (List.mem_singleton.mp last).symm
      · rintro ⟨row, member, sum, failed⟩
        exact notSum sum (Except.error.inj ((fails row member).symm.trans failed))

theorem mask_eq_map (wellFormed : table.WellFormed) {formula : Formula}
    (good : ∀ sum, .badSum sum ∉ (formula.evaluate table).issues) :
    (formula.evaluate table).mask =
      table.rows.map fun row => (formula.holdsOn (table.onRow row)).toOption == some true := by
  have agrees := marksOf_agrees wellFormed formula
  generalize found : marksOf table formula = result at agrees
  cases agrees with
  | values same =>
      rw [(evaluate_of_marksOf_ok found).1]
      have tested := congrArg (List.map fun result : Except Issue Bool =>
        result.toOption == some true) same
      simpa [Function.comp_def, Except.toOption] using tested.symm
  | @badSum failing row member fails =>
      rw [(evaluate_of_marksOf_error found).2] at good
      exact absurd (List.mem_append_right _ (List.mem_singleton.mpr rfl)) (good failing)
  | everywhere fatal notSum fails =>
      rw [(evaluate_of_marksOf_error found).1]
      have tested : (table.rows.map fun row =>
          (formula.holdsOn (table.onRow row)).toOption == some true) =
            table.rows.map fun _ => false := by
        apply List.map_congr_left
        intro row member
        simp [fails row member, Except.toOption]
      rw [tested, List.map_const', wellFormed.length_rows]

theorem badSum_applyFormula {written : WrittenFormula} :
    (FormulaList.applyFormula written table).BadSum ↔
      ∃ sum, .badSum sum ∈ (written.formula.evaluate table).issues := by
  simp only [Filtering.BadSum, FormulaList.applyFormula, List.mem_map]
  constructor
  · rintro ⟨_, ⟨issue, member, rfl⟩, code⟩
    cases issue with
    | badSum formula => exact ⟨formula, member⟩
    | _ => simp [FormulaList.warningOf, Issue.code] at code
  · rintro ⟨formula, member⟩
    exact ⟨_, ⟨_, member, rfl⟩, rfl⟩

theorem fate_eq_stuck_iff {schema : List (String × CellType)} {formula : Formula}
    {row : List Cell} :
    formula.fate schema row = .stuck ↔
      ∃ sum, formula.holdsOn (cellAt (schema.map (·.1)) row) = .error (.badSum sum) := by
  unfold fate
  split
  · rename_i holds given
    cases holds <;> simp [given, RowFate.keepIf]
  · rename_i given
    simp [given]
  · rename_i notSum given
    simpa [given] using notSum

theorem acts_applyFormula (wellFormed : table.WellFormed) (written : WrittenFormula) :
    Acts (written.formula.fate table.schema) table
      (FormulaList.applyFormula written table) where
  stuck := by
    simp only [badSum_applyFormula, badSum_mem_issues_iff wellFormed, fate_eq_stuck_iff,
      Table.onRow, Table.names_eq_schema]
  rows := by
    intro good
    rw [badSum_applyFormula, not_exists] at good
    refine ⟨_, rfl, ?_⟩
    simp only [mask_eq_map wellFormed good, Table.rows_filter_map, row?_fate, Table.onRow,
      Table.names_eq_schema, beq_iff_eq]

end Formula

end TableSieve
