import Mathlib.Data.List.Basic
import TableSieve.Proofs.Validating

/-!
A list of formulas as one conjunction. Each formula is evaluated on what the formulas before it have
left, but unless a sum fails a row is marked or not by itself. So filtering by them one after another
is filtering once by the rows that every formula marks on the whole table, in whatever order.
-/

namespace TableSieve

variable {table : Table}

namespace Formula

/-- Whether the formula lets a row pass. -/
def passes (schema : List (String × CellType)) (formula : Formula) (row : List Cell) : Bool :=
  (formula.holdsOn (cellAt (schema.map (·.1)) row)).toOption == some true

theorem fate_eq_keepIf {schema : List (String × CellType)} {formula : Formula} {row : List Cell}
    (good : formula.fate schema row ≠ .stuck) :
    formula.fate schema row = .keepIf (formula.passes schema row) row := by
  unfold fate at good ⊢
  unfold passes
  split
  · rename_i holds given
    cases holds <;> simp [given, Except.toOption]
  · rename_i given
    simp [given] at good
  · rename_i given
    simp [given, Except.toOption, RowFate.keepIf]

theorem mask_eq_map_passes (wellFormed : table.WellFormed) {formula : Formula}
    (good : ∀ sum, .badSum sum ∉ (formula.evaluate table).issues) :
    (formula.evaluate table).mask = table.rows.map (formula.passes table.schema) := by
  simp only [mask_eq_map wellFormed good, Table.onRow, Table.names_eq_schema]
  rfl

theorem fate_ne_stuck (wellFormed : table.WellFormed) {formula : Formula}
    (good : ∀ sum, .badSum sum ∉ (formula.evaluate table).issues) {row : List Cell}
    (member : row ∈ table.rows) : formula.fate table.schema row ≠ .stuck := by
  rw [Ne, fate_eq_stuck_iff]
  rintro ⟨sum, failed⟩
  rw [← table.names_eq_schema] at failed
  obtain ⟨other, listed⟩ :=
    (badSum_mem_issues_iff wellFormed formula).mpr ⟨row, member, sum, failed⟩
  exact good other listed

end Formula

namespace FormulaList

def marks (list : FormulaList) (table : Table) : List Bool :=
  (List.range table.size).map fun row =>
    list.formulas.all fun written => (written.formula.evaluate table).mask[row]? == some true

theorem steps_fate_eq_keepIf {schema : List (String × CellType)} {row : List Cell}
    {formulas : List WrittenFormula}
    (good : ∀ written ∈ formulas, written.formula.fate schema row ≠ .stuck) :
    RowFate.steps (fun written => written.formula.fate schema) formulas row =
      .keepIf (formulas.all fun written => written.formula.passes schema row) row := by
  induction formulas with
  | nil => rfl
  | cons written formulas ih =>
      obtain ⟨first, rest⟩ := List.forall_mem_cons.mp good
      rw [RowFate.steps, Formula.fate_eq_keepIf first, List.all_cons]
      cases written.formula.passes schema row with
      | true => exact ih rest
      | false => rfl

theorem marks_eq_map (wellFormed : table.WellFormed) {list : FormulaList}
    (good : ∀ written ∈ list.formulas, ∀ sum,
      .badSum sum ∉ (written.formula.evaluate table).issues) :
    list.marks table = table.rows.map fun row =>
      list.formulas.all fun written => written.formula.passes table.schema row := by
  apply List.ext_getElem (by simp [marks, wellFormed.length_rows])
  intro index _ bound
  have inRange : index < table.rows.length := by simpa using bound
  simp only [marks, List.getElem_map, List.getElem_range]
  rw [Bool.eq_iff_iff, List.all_eq_true, List.all_eq_true]
  refine forall₂_congr fun written inside => ?_
  rw [Formula.mask_eq_map_passes wellFormed (good written inside)]
  simp [inRange]

theorem marks_of_perm {list reordered : FormulaList}
    (reorders : reordered.formulas.Perm list.formulas) (table : Table) :
    reordered.marks table = list.marks table := by
  simp only [marks, reorders.all_eq]

theorem apply_eq_filter {list : FormulaList} (wellFormed : table.WellFormed)
    (known : ∀ field ∈ list.fields, field ∈ table.schema.map (·.1))
    (good : ∀ written ∈ list.formulas, ∀ sum,
      .badSum sum ∉ (written.formula.evaluate table).issues) :
    ((Constraint.formulas list).apply table).result = .ok (table.filter (list.marks table)) := by
  -- A later formula sees fewer rows, but each of them is a row of the whole table.
  have fates : ∀ row ∈ table.rows,
      RowFate.steps (fun written => written.formula.fate table.schema) list.formulas row =
        .keepIf (list.formulas.all fun written => written.formula.passes table.schema row) row :=
    fun row member => steps_fate_eq_keepIf fun written inside =>
      Formula.fate_ne_stuck wellFormed (good written inside) member
  have acts : Acts ((Constraint.formulas list).fate table.schema) table
      ((Constraint.formulas list).apply table) := Constraint.acts_apply wellFormed rfl known
  have noBadSum : ¬((Constraint.formulas list).apply table).BadSum := by
    rw [acts.stuck]
    rintro ⟨row, member, stuck⟩
    rw [Constraint.fate, fates row member, RowFate.keepIf] at stuck
    split at stuck <;> cases stuck
  obtain ⟨narrowed, given, rows⟩ := acts.rows noBadSum
  obtain ⟨narrowedWellFormed, sameSchema⟩ :=
    ((Constraint.formulas list).narrows_apply wellFormed).keeps narrowed given
  have sameRows : narrowed.rows = (table.filter (list.marks table)).rows := by
    rw [rows, marks_eq_map wellFormed good, Table.rows_filter_map]
    refine List.filterMap_congr fun row member => ?_
    rw [Constraint.fate, fates row member, RowFate.row?_keepIf]
  rw [given, narrowedWellFormed.eq_of_rows (wellFormed.filter _)
    (sameSchema.trans (Table.schema_filter _).symm) sameRows]

/-- Unless a sum fails on the table, filtering by a list of formulas keeps the rows that every formula
marks on the whole table, and the order of the formulas does not matter. -/
theorem apply_conjoins_masks (list : FormulaList) (wellFormed : table.WellFormed)
    (hasFields : ∀ field ∈ list.fields, table.hasColumn field = true)
    (noBadSum : ∀ written ∈ list.formulas, ∀ issue ∈ (written.formula.evaluate table).issues,
      issue.code ≠ "invalid_sum") :
    ((Constraint.formulas list).apply table).result = .ok (table.filter (list.marks table)) ∧
      ∀ reordered : FormulaList, reordered.formulas.Perm list.formulas →
        ((Constraint.formulas reordered).apply table).result =
          ((Constraint.formulas list).apply table).result := by
  have known : ∀ field ∈ list.fields, field ∈ table.schema.map (·.1) :=
    fun field member => Table.hasColumn_iff.mp (hasFields field member)
  have good : ∀ written ∈ list.formulas, ∀ sum,
      .badSum sum ∉ (written.formula.evaluate table).issues :=
    fun written inside sum member => noBadSum written inside (.badSum sum) member rfl
  have filtered := apply_eq_filter wellFormed known good
  refine ⟨filtered, fun reordered reorders => ?_⟩
  have sameFields : ∀ field, field ∈ reordered.fields ↔ field ∈ list.fields := by
    intro field
    simp only [fields, mem_sortNames, List.mem_flatMap, reorders.mem_iff]
  rw [filtered, apply_eq_filter wellFormed (fun field member => known field
      ((sameFields field).mp member)) (fun written inside => good written
      (reorders.mem_iff.mp inside)), marks_of_perm reorders]

theorem apply_conjoins_masks_unlike :
    let older : WrittenFormula :=
      ⟨"age + 1 > 20",
        .compare (.sum (.field "age") (.literal (.int 1))) .greater (.literal (.int 20))⟩
    let unlike : WrittenFormula := ⟨"age != team", .compare (.field "age") .notEqual (.field "team")⟩
    let placed : WrittenFormula := ⟨"team != NULL", .nullTest (.field "team") true⟩
    let table : Table :=
      ⟨[⟨"age", .int, [.int 30, .null, .int 17, .int 40, .int 25]⟩,
        ⟨"team", .text, [.text "a", .text "b", .text "c", .null, .text "e"]⟩], 5⟩
    let marks := [true, false, false, false, true]
    table.WellFormed ∧
      (∀ field ∈ FormulaList.fields ⟨[older, unlike, placed]⟩, table.hasColumn field = true) ∧
      (∀ written ∈ [older, unlike, placed], ∀ issue ∈ (written.formula.evaluate table).issues,
        issue.code ≠ "invalid_sum") ∧
      ((Constraint.formulas ⟨[older, unlike, placed]⟩).apply table).result =
        .ok (table.filter marks) ∧
      ((Constraint.formulas ⟨[placed, older, unlike]⟩).apply table).result =
        .ok (table.filter marks) := by
  intro older unlike placed table marks
  have wellFormed : table.WellFormed := by decide +kernel
  have hasFields : ∀ field ∈ FormulaList.fields ⟨[older, unlike, placed]⟩,
      table.hasColumn field = true := by decide +kernel
  have noBadSum : ∀ written ∈ [older, unlike, placed],
      ∀ issue ∈ (written.formula.evaluate table).issues, issue.code ≠ "invalid_sum" := by
    decide +kernel
  have marked : FormulaList.marks ⟨[older, unlike, placed]⟩ table = marks := by decide +kernel
  have reorders : [placed, older, unlike].Perm [older, unlike, placed] := by decide +kernel
  obtain ⟨filtered, sameForAll⟩ := apply_conjoins_masks ⟨[older, unlike, placed]⟩ wellFormed
    hasFields noBadSum
  rw [marked] at filtered
  exact ⟨wellFormed, hasFields, noBadSum, filtered,
    (sameForAll ⟨[placed, older, unlike]⟩ reorders).trans filtered⟩

end FormulaList

end TableSieve
