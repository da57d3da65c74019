import TableSieve.Proofs.RowFates

/-!
The pipeline, row by row. Every constraint gives each row of a table a fate of its own, from the
cells of the row and the schema of the table alone. Filtering a table is therefore filtering its
rows, or batches of them, and appending what is left.
-/

namespace TableSieve

variable {table : Table} {schema : List (String × CellType)}

namespace CombinationRule

def fate (schema : List (String × CellType)) (rule : CombinationRule) (row : List Cell) : RowFate :=
  .keepIf (rule.holds (rule.source.names.map (fieldOf schema row)) (fieldOf schema row rule.target))
    row

theorem keptRows_eq_ok (wellFormed : table.WellFormed) {rule : CombinationRule}
    (known : ∀ field ∈ rule.fieldList, field ∈ table.schema.map (·.1)) :
    rule.keptRows table = .ok (table.rows.map fun row =>
      rule.holds (rule.source.names.map (fieldOf table.schema row))
        (fieldOf table.schema row rule.target)) := by
  obtain ⟨sources, sourcesOk, sourcesFound⟩ := Table.columns_of_known fun field member =>
    known field (List.mem_append_left [rule.target] member)
  obtain ⟨target, targetFound⟩ := Table.exists_column?_iff.mpr
    (known rule.target (List.mem_append_right rule.source.names (List.mem_singleton.mpr rfl)))
  simp only [keptRows, sourcesOk, Table.column_eq_ok_iff.mpr targetFound, bind, Except.bind]
  rw [wellFormed.transpose_fields sourcesFound, wellFormed.cells_eq_map targetFound]
  simp [List.zipWith_map_left, List.zipWith_map_right, List.zipWith_self]

theorem acts_apply (wellFormed : table.WellFormed) (sameSchema : table.schema = schema)
    {rule : CombinationRule} (known : ∀ field ∈ rule.fieldList, field ∈ schema.map (·.1)) :
    Acts (rule.fate schema) table (rule.apply table) := by
  subst sameSchema
  simp only [apply, keptRows_eq_ok wellFormed known]
  exact .filter fun row => rule.holds (rule.source.names.map (fieldOf table.schema row))
    (fieldOf table.schema row rule.target)

end CombinationRule

namespace NullGroups

def eraseRow (schema : List (String × CellType)) (main related : String) (row : List Cell) :
    List Cell :=
  if related = main then row
  else setField schema related
    (eraseCell (fieldOf schema row main) (fieldOf schema row related)) row

def copyRow (schema : List (String × CellType)) (main related : String) (row : List Cell) :
    List Cell :=
  if related = main then row
  else match schema.lookup main, schema.lookup related with
    | some source, some target =>
      if source.canCastTo target then
        setField schema related
          (copyCell target (fieldOf schema row main) (fieldOf schema row related)) row
      else row
    | _, _ => row

def ruleFate (schema : List (String × CellType)) (rule : NullRule) (row : List Cell) : RowFate :=
  match rule.action with
  | .delete => .kept row
  | .spread erased copied =>
    (RowFate.steps (fun related row => .kept (eraseRow schema rule.main related row)) erased
      row).andThen
      (RowFate.steps (fun related row => .kept (copyRow schema rule.main related row)) copied)

def spares (schema : List (String × CellType)) (groups : NullGroups) (row : List Cell) : Bool :=
  groups.deleteFields.all fun field => !(fieldOf schema row field).isMissing

def fate (schema : List (String × CellType)) (groups : NullGroups) (row : List Cell) : RowFate :=
  (RowFate.keepIf (groups.spares schema row) row).andThen
    (RowFate.steps (ruleFate schema) groups.rules)

theorem accepts_eraseCell {type : CellType} {main related : Cell}
    (accepted : type.accepts related = true) : type.accepts (eraseCell main related) = true := by
  unfold eraseCell
  split
  · exact CellType.accepts_of_missing rfl type
  · exact accepted

theorem accepts_copyCell {type : CellType} {main related : Cell}
    (accepted : type.accepts related = true) : type.accepts (copyCell type main related) = true := by
  unfold copyCell
  split
  · cases cast : type.cast? main with
    | none => exact CellType.accepts_of_missing rfl type
    | some fit => exact CellType.accepts_of_cast? cast
  · exact accepted

theorem acts_withCells (wellFormed : table.WellFormed) {main related : String}
    {source target : Column} (sourceFound : table.column? main = some source)
    (targetFound : table.column? related = some target) {join : Cell → Cell → Cell}
    (accepts : ∀ mainCell cell, target.type.accepts cell = true →
      target.type.accepts (join mainCell cell) = true) :
    Acts (fun row => .kept (setField table.schema related
        (join (fieldOf table.schema row main) (fieldOf table.schema row related)) row)) table
      (.ofTable (table.withCells related (List.zipWith join source.cells target.cells))) := by
  have sourceLength := wellFormed.lengths source (Table.mem_of_column? sourceFound).1
  have targetLength := wellFormed.lengths target (Table.mem_of_column? targetFound).1
  have accepted : ∀ cell ∈ List.zipWith join source.cells target.cells,
      target.type.accepts cell = true := by
    intro cell member
    rw [← List.map_uncurry_zip_eq_zipWith] at member
    obtain ⟨pair, zipped, rfl⟩ := List.mem_map.mp member
    exact accepts pair.1 pair.2
      (wellFormed.cells target (Table.mem_of_column? targetFound).1 pair.2 (List.of_mem_zip zipped).2)
  have filled := wellFormed.withCells_eq_ok_iff.mpr ⟨target, targetFound,
    by simp [sourceLength, targetLength], _, Column.mapM_cast?_of_accepts accepted, rfl⟩
  rw [filled]
  refine .of_rows (by simp [Filtering.ofTable, Filtering.done]) (by simp) rfl ?_
  rw [wellFormed.rows_setCells_zipWith sourceFound targetFound]
  simp [RowFate.row?]

theorem acts_erase (wellFormed : table.WellFormed) (sameSchema : table.schema = schema)
    {main related : String} (mainKnown : main ∈ schema.map (·.1))
    (relatedKnown : related ∈ schema.map (·.1)) :
    Acts (fun row => .kept (eraseRow schema main related row)) table
      (erase main related table) := by
  subst sameSchema
  unfold erase eraseRow
  split
  · exact .keep (by simp [Filtering.noting, selfReference]) rfl
  · obtain ⟨source, sourceFound⟩ := Table.exists_column?_iff.mpr mainKnown
    obtain ⟨target, targetFound⟩ := Table.exists_column?_iff.mpr relatedKnown
    have filled : eraseInto table main related =
        table.withCells related (List.zipWith eraseCell source.cells target.cells) := by
      simp only [eraseInto, Table.column_eq_ok_iff.mpr sourceFound,
        Table.column_eq_ok_iff.mpr targetFound, bind, Except.bind]
    rw [filled]
    exact acts_withCells wellFormed sourceFound targetFound fun _ _ => accepts_eraseCell

theorem acts_copy (wellFormed : table.WellFormed) (sameSchema : table.schema = schema)
    {main related : String} (mainKnown : main ∈ schema.map (·.1))
    (relatedKnown : related ∈ schema.map (·.1)) :
    Acts (fun row => .kept (copyRow schema main related row)) table
      (copy main related table) := by
  subst sameSchema
  unfold copy copyRow
  split
  · exact .keep (by simp [Filtering.noting, selfReference]) rfl
  · obtain ⟨source, sourceFound⟩ := Table.exists_column?_iff.mpr mainKnown
    obtain ⟨target, targetFound⟩ := Table.exists_column?_iff.mpr relatedKnown
    simp only [Table.column_eq_ok_iff.mpr sourceFound, Table.column_eq_ok_iff.mpr targetFound,
      Table.lookup_schema sourceFound, Table.lookup_schema targetFound]
    split
    · obtain rfl : target.name = related := (Table.mem_of_column? targetFound).2
      exact acts_withCells wellFormed sourceFound targetFound fun _ _ => accepts_copyCell
    · exact .keep (by simp [Filtering.noting, incompatible]) rfl

theorem acts_applyRule (wellFormed : table.WellFormed) (sameSchema : table.schema = schema)
    {rule : NullRule} (known : ∀ field ∈ rule.fieldList, field ∈ schema.map (·.1)) :
    Acts (ruleFate schema rule) table (applyRule rule table) := by
  unfold ruleFate applyRule
  cases action : rule.action with
  | delete => exact .keep (by simp [Filtering.done]) rfl
  | spread erased copied =>
      simp only [NullRule.fieldList, action, List.mem_cons, List.mem_append] at known
      have mainKnown := known rule.main (Or.inl rfl)
      refine Acts.andThen (narrows_steps_erase rule.main erased wellFormed) ?_ ?_
      · refine .steps (fun related _ => narrows_erase rule.main related) ?_ wellFormed sameSchema
        intro related member table wellFormed sameSchema
        exact acts_erase wellFormed sameSchema mainKnown (known related (Or.inr (Or.inl member)))
      · intro between betweenWellFormed betweenSchema
        refine .steps (fun related _ => narrows_copy rule.main related) ?_ betweenWellFormed
          (betweenSchema.trans sameSchema)
        intro related member table wellFormed sameSchema
        exact acts_copy wellFormed sameSchema mainKnown (known related (Or.inr (Or.inr member)))

theorem foldl_keepPresent {fields : List String} {columns : List Column}
    (wellFormed : table.WellFormed) (found : fields.map table.column? = columns.map some)
    (start : List Cell → Bool) :
    columns.foldl keepPresent (table.rows.map start) =
      table.rows.map fun row =>
        start row && fields.all fun field => !(fieldOf table.schema row field).isMissing := by
  induction fields generalizing columns start with
  | nil =>
      have none : columns = [] := by simpa using found.symm
      simp [none]
  | cons field fields ih =>
      cases columns with
      | nil => simp at found
      | cons column columns =>
          simp only [List.map_cons, List.cons.injEq] at found
          have marked : keepPresent (table.rows.map start) column =
              table.rows.map fun row =>
                start row && !(fieldOf table.schema row field).isMissing := by
            simp [keepPresent, wellFormed.cells_eq_map found.1, List.zipWith_map_left,
              List.zipWith_map_right, List.zipWith_self]
          rw [List.foldl_cons, marked, ih found.2]
          simp only [List.all_cons, Bool.and_assoc]

theorem fieldList_subset {groups : NullGroups} {rule : NullRule} (member : rule ∈ groups.rules) :
    ∀ field ∈ rule.fieldList, field ∈ groups.fields :=
  fun _ inside => mem_sortNames.mpr (List.mem_flatMap.mpr ⟨rule, member, inside⟩)

theorem deleteFields_subset (groups : NullGroups) :
    ∀ field ∈ groups.deleteFields, field ∈ groups.fields := by
  intro field member
  obtain ⟨rule, present, deletes⟩ := List.mem_filterMap.mp member
  split at deletes
  · rename_i action
    obtain rfl := Option.some.inj deletes
    exact fieldList_subset present rule.main (by simp [NullRule.fieldList, action])
  · simp at deletes

theorem acts_filter (wellFormed : table.WellFormed) (sameSchema : table.schema = schema)
    {groups : NullGroups} (known : ∀ field ∈ groups.fields, field ∈ schema.map (·.1)) :
    Acts (groups.fate schema) table (groups.filter table) := by
  subst sameSchema
  obtain ⟨columns, visited, found⟩ := Table.columns_of_known fun field member =>
    known field (groups.deleteFields_subset field member)
  have start : List.replicate table.size true = table.rows.map fun _ => true := by
    rw [List.map_const', wellFormed.length_rows]
  have kept : groups.keptRows table = .ok (table.rows.map (groups.spares table.schema)) := by
    simp only [keptRows, visited, bind, Except.bind]
    rw [start, foldl_keepPresent wellFormed found]
    simp [spares]
  have narrows : Narrows codes table
      (.done (table.filter (table.rows.map (groups.spares table.schema)))) :=
    .done (wellFormed.filter _) (Table.schema_filter _)
  unfold NullGroups.filter
  rw [kept]
  refine .andThen narrows (.filter (groups.spares table.schema)) ?_
  intro between betweenWellFormed betweenSchema
  refine .steps (fun rule _ => narrows_applyRule rule) ?_ betweenWellFormed betweenSchema
  intro rule member table wellFormed sameSchema
  exact acts_applyRule wellFormed sameSchema fun field inside =>
    known field (fieldList_subset member field inside)

end NullGroups

theorem FormulaList.acts_filter (list : FormulaList) (wellFormed : table.WellFormed)
    (sameSchema : table.schema = schema) :
    Acts (RowFate.steps (fun written => written.formula.fate schema) list.formulas) table
      (list.filter table) := by
  refine .steps (fun written _ => narrows_applyFormula written) ?_ wellFormed sameSchema
  intro written _ table wellFormed sameSchema
  exact sameSchema ▸ Formula.acts_applyFormula wellFormed written

theorem Combinations.acts_filter {combinations : Combinations} (wellFormed : table.WellFormed)
    (sameSchema : table.schema = schema)
    (known : ∀ field ∈ combinations.fields, field ∈ schema.map (·.1)) :
    Acts (RowFate.steps (CombinationRule.fate schema) combinations.rules) table
      (combinations.filter table) := by
  refine .steps (fun rule _ => rule.narrows_apply) ?_ wellFormed sameSchema
  intro rule member table wellFormed sameSchema
  refine CombinationRule.acts_apply wellFormed sameSchema fun field inside => known field ?_
  exact mem_sortNames.mpr (List.mem_flatMap.mpr ⟨rule, member, inside⟩)

namespace Constraint

def fate (schema : List (String × CellType)) : Constraint → List Cell → RowFate
  | .nullGroups groups => groups.fate schema
  | .formulas list => RowFate.steps (fun written => written.formula.fate schema) list.formulas
  | .combinations rules => RowFate.steps (CombinationRule.fate schema) rules.rules

theorem validate_eq_ok {constraint : Constraint}
    (known : ∀ field ∈ constraint.fields, field ∈ table.schema.map (·.1)) :
    constraint.validate table = .ok () := by
  have none : table.missingField? constraint.fields = none := by
    refine List.find?_eq_none.mpr fun field member => ?_
    obtain ⟨column, found⟩ := Table.exists_column?_iff.mpr (known field member)
    simp [Table.hasColumn, found]
  simp [validate, Table.checkFields, none]

theorem acts_apply {constraint : Constraint} (wellFormed : table.WellFormed)
    (sameSchema : table.schema = schema)
    (known : ∀ field ∈ constraint.fields, field ∈ schema.map (·.1)) :
    Acts (constraint.fate schema) table (constraint.apply table) := by
  have valid : constraint.validate table = .ok () :=
    validate_eq_ok (sameSchema ▸ known)
  unfold apply
  rw [valid]
  cases constraint with
  | nullGroups groups => exact NullGroups.acts_filter wellFormed sameSchema known
  | formulas list => exact list.acts_filter wellFormed sameSchema
  | combinations rules => exact Combinations.acts_filter wellFormed sameSchema known

end Constraint

namespace Pipeline

def fate (schema : List (String × CellType)) (pipeline : Pipeline) : List Cell → RowFate :=
  RowFate.steps (Constraint.fate schema) pipeline.constraints

theorem acts_apply {pipeline : Pipeline} (wellFormed : table.WellFormed)
    (sameSchema : table.schema = schema)
    (known : ∀ field ∈ pipeline.fields, field ∈ schema.map (·.1)) :
    Acts (pipeline.fate schema) table (pipeline.apply table) := by
  refine .steps (fun constraint _ => constraint.narrows_apply) ?_ wellFormed sameSchema
  intro constraint member table wellFormed sameSchema
  refine Constraint.acts_apply wellFormed sameSchema fun field inside => known field ?_
  exact mem_sortNames.mpr (List.mem_flatMap.mpr ⟨constraint, member, inside⟩)

theorem apply_take {pipeline : Pipeline} (wellFormed : table.WellFormed)
    (known : ∀ field ∈ pipeline.fields, field ∈ table.schema.map (·.1))
    (good : ¬(pipeline.apply table).BadSum) {positions : List Nat}
    (inRange : ∀ position ∈ positions, position < table.size) :
    ∃ part, (pipeline.apply (table.take positions)).result = .ok part ∧ part.WellFormed ∧
      part.schema = table.schema ∧
      part.rows = (gather positions table.rows).filterMap fun row =>
        (pipeline.fate table.schema row).row? := by
  have batchWellFormed := wellFormed.take inRange
  have batchSchema := table.schema_take positions
  have batchRows := wellFormed.rows_take inRange
  have acts := acts_apply batchWellFormed batchSchema known
  have batchGood : ¬(pipeline.apply (table.take positions)).BadSum := by
    intro bad
    obtain ⟨row, member, stuck⟩ := acts.stuck.mp bad
    refine good ((acts_apply wellFormed rfl known).stuck.mpr ⟨row, ?_, stuck⟩)
    exact mem_of_mem_gather (batchRows ▸ member)
  obtain ⟨part, given, rows⟩ := acts.rows batchGood
  obtain ⟨partWellFormed, partSchema⟩ := (pipeline.narrows_apply batchWellFormed).keeps part given
  exact ⟨part, given, partWellFormed, partSchema.trans batchSchema, by rw [rows, batchRows]⟩

theorem mapM_apply_take {pipeline : Pipeline} (wellFormed : table.WellFormed)
    (known : ∀ field ∈ pipeline.fields, field ∈ table.schema.map (·.1))
    (good : ¬(pipeline.apply table).BadSum) {batches : List (List Nat)}
    (inRange : ∀ position ∈ batches.flatten, position < table.size) :
    ∃ parts, (batches.mapM fun positions => (pipeline.apply (table.take positions)).result) =
        .ok parts ∧
      (∀ part ∈ parts, part.WellFormed ∧ part.schema = table.schema) ∧
      parts.flatMap Table.rows = (gather batches.flatten table.rows).filterMap fun row =>
        (pipeline.fate table.schema row).row? := by
  induction batches with
  | nil => exact ⟨[], rfl, by simp, by simp [gather]⟩
  | cons positions batches ih =>
      simp only [List.flatten_cons, List.mem_append] at inRange
      obtain ⟨part, given, partWellFormed, partSchema, rows⟩ :=
        apply_take wellFormed known good fun position member => inRange position (Or.inl member)
      obtain ⟨parts, visited, partsKept, restRows⟩ :=
        ih fun position member => inRange position (Or.inr member)
      refine ⟨part :: parts, ?_, ?_, ?_⟩
      · rw [mapM_eq_ok_iff] at visited ⊢
        rw [List.map_cons, List.map_cons, given, visited]
      · exact List.forall_mem_cons.mpr ⟨⟨partWellFormed, partSchema⟩, partsKept⟩
      · rw [List.flatMap_cons, rows, restRows, List.flatten_cons, gather_append,
          List.filterMap_append]

theorem mapM_apply_parts {pipeline : Pipeline} (wellFormed : table.WellFormed)
    (known : ∀ field ∈ pipeline.fields, field ∈ table.schema.map (·.1))
    (good : ¬(pipeline.apply table).BadSum) {narrowed : Table}
    (given : (pipeline.apply table).result = .ok narrowed) {batches : List (List Nat)}
    (flat : batches.flatten = List.range table.size) :
    ∃ parts, (batches.mapM fun positions => (pipeline.apply (table.take positions)).result) =
        .ok parts ∧
      (∀ part ∈ parts, part.WellFormed ∧ part.schema = table.schema) ∧
      narrowed.rows = parts.flatMap Table.rows := by
  obtain ⟨parts, visited, kept, partsRows⟩ := mapM_apply_take wellFormed known good
    fun position member => List.mem_range.mp (flat ▸ member)
  obtain ⟨other, otherGiven, rows⟩ := (acts_apply wellFormed rfl known).rows good
  obtain rfl := Except.ok.inj (given.symm.trans otherGiven)
  have allRows : gather (List.range table.size) table.rows = table.rows := by
    rw [← wellFormed.length_rows, gather_range]
  exact ⟨parts, visited, kept, by rw [partsRows, flat, allRows, rows]⟩

theorem size_le_one_of_apply_take {pipeline : Pipeline} (wellFormed : table.WellFormed)
    (known : ∀ field ∈ pipeline.fields, field ∈ table.schema.map (·.1))
    (good : ¬(pipeline.apply table).BadSum) {position : Nat} (inRange : position < table.size)
    {single : Table} (given : (pipeline.apply (table.take [position])).result = .ok single) :
    single.size ≤ 1 := by
  obtain ⟨part, partGiven, partWellFormed, _, partRows⟩ := apply_take wellFormed known good
    (List.forall_mem_singleton.mpr inRange)
  obtain rfl := Except.ok.inj (given.symm.trans partGiven)
  calc
    single.size = single.rows.length := partWellFormed.length_rows.symm
    _ ≤ (gather [position] table.rows).length := by
      rw [partRows]
      exact List.length_filterMap_le _ _
    _ ≤ 1 := by
      rw [gather_eq_filterMap]
      exact List.length_filterMap_le _ _

/-- Filtering a table is filtering its rows one by one, or in batches, unless a sum fails. -/
theorem apply_by_rows {pipeline : Pipeline} (wellFormed : table.WellFormed)
    (hasFields : ∀ field ∈ pipeline.fields, table.hasColumn field = true)
    (noBadSum : ∀ warning ∈ (pipeline.apply table).warnings, warning.code ≠ "invalid_sum") :
    ∃ narrowed, (pipeline.apply table).result = .ok narrowed ∧ narrowed.schema = table.schema ∧
      (∃ singles,
        ((List.range table.size).mapM fun position =>
          (pipeline.apply (table.take [position])).result) = .ok singles ∧
        (∀ single ∈ singles, single.schema = table.schema ∧ single.size ≤ 1) ∧
        narrowed.rows = singles.flatMap Table.rows) ∧
      ∀ batches : List (List Nat), batches ≠ [] → batches.flatten = List.range table.size →
        ∃ part parts,
          (batches.mapM fun positions => (pipeline.apply (table.take positions)).result) =
              .ok (part :: parts) ∧
            parts.foldlM Table.concat part = .ok narrowed := by
  have known : ∀ field ∈ pipeline.fields, field ∈ table.schema.map (·.1) :=
    fun field member => Table.exists_column?_iff.mp
      (Option.isSome_iff_exists.mp (hasFields field member))
  have good : ¬(pipeline.apply table).BadSum :=
    fun ⟨warning, member, code⟩ => noBadSum warning member code
  obtain ⟨narrowed, given, _⟩ := (acts_apply wellFormed rfl known).rows good
  obtain ⟨narrowedWellFormed, sameSchema⟩ := (pipeline.narrows_apply wellFormed).keeps narrowed given
  refine ⟨narrowed, given, sameSchema, ?_, ?_⟩
  · have flat : ((List.range table.size).map fun position => [position]).flatten =
        List.range table.size := by
      rw [← List.flatMap_def, List.flatMap_singleton']
    obtain ⟨singles, visited, kept, rows⟩ := mapM_apply_parts wellFormed known good given flat
    simp only [List.mapM_map, Function.comp_def] at visited
    refine ⟨singles, visited, ?_, rows⟩
    intro single member
    have listed : .ok single ∈ (List.range table.size).map fun position =>
        (pipeline.apply (table.take [position])).result := by
      rw [mapM_eq_ok_iff.mp visited]
      exact List.mem_map_of_mem member
    obtain ⟨position, inside, singleGiven⟩ := List.mem_map.mp listed
    exact ⟨(kept single member).2, size_le_one_of_apply_take wellFormed known good
      (List.mem_range.mp inside) singleGiven⟩
  · intro batches nonempty flat
    obtain ⟨all, visited, kept, rows⟩ := mapM_apply_parts wellFormed known good given flat
    cases all with
    | nil =>
        rw [mapM_eq_ok_iff] at visited
        simp [nonempty] at visited
    | cons part parts =>
        obtain ⟨⟨partWellFormed, partSchema⟩, partsKept⟩ := List.forall_mem_cons.mp kept
        refine ⟨part, parts, visited, narrowedWellFormed.foldlM_concat_eq partWellFormed ?_
          (sameSchema.trans partSchema.symm) rows⟩
        exact fun other member =>
          ⟨(partsKept other member).1, (partsKept other member).2.trans partSchema.symm⟩

theorem apply_by_rows_in_batches :
    let table : Table :=
      ⟨[⟨"age", .int, [.int 30, .null, .int 17]⟩, ⟨"team", .text, [.text "a", .text "b", .null]⟩], 3⟩
    let pipeline : Pipeline :=
      ⟨[.nullGroups ⟨[⟨"age", .spread ["team"] []⟩]⟩,
        .formulas ⟨[⟨"", .either (.compare (.field "age") .greater (.literal (.int 20)))
          (.nullTest (.field "age") false)⟩]⟩], .empty⟩
    let narrowed : Table :=
      ⟨[⟨"age", .int, [.int 30, .null]⟩, ⟨"team", .text, [.text "a", .null]⟩], 2⟩
    table.WellFormed ∧ (∀ field ∈ pipeline.fields, table.hasColumn field = true) ∧
      (∀ warning ∈ (pipeline.apply table).warnings, warning.code ≠ "invalid_sum") ∧
      (pipeline.apply table).result = .ok narrowed ∧
      ∃ part parts,
        ([[0], [1, 2]].mapM fun positions => (pipeline.apply (table.take positions)).result) =
            .ok (part :: parts) ∧
          parts.foldlM Table.concat part = .ok narrowed := by
  intro table pipeline narrowed
  have wellFormed : table.WellFormed := by decide
  have hasFields : ∀ field ∈ pipeline.fields, table.hasColumn field = true := by decide
  have noBadSum : ∀ warning ∈ (pipeline.apply table).warnings,
      warning.code ≠ "invalid_sum" := by decide
  have given : (pipeline.apply table).result = .ok narrowed := by rfl
  obtain ⟨other, otherOk, _, _, inBatches⟩ := apply_by_rows wellFormed hasFields noBadSum
  obtain rfl := Except.ok.inj (otherOk.symm.trans given)
  exact ⟨wellFormed, hasFields, noBadSum, given, inBatches [[0], [1, 2]] (by simp) rfl⟩

end Pipeline

end TableSieve
