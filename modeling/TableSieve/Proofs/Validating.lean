import TableSieve.CommandLine.Plan
import TableSieve.Proofs.Building
import TableSieve.Proofs.RowWise

/-!
Fields are all that a pipeline can miss. A constraint whose fields a table has gives a table of the
same columns, so what the later constraints find is decided by the table that the pipeline was
given: filtering it fails exactly when the check of its fields does.
-/

namespace TableSieve

structure Table.Within (narrowed table : Table) : Prop where
  wellFormed : narrowed.WellFormed
  schema : narrowed.schema = table.schema
  size : narrowed.size ≤ table.size

def Filtering.Succeeds (filtering : Filtering) (table : Table) : Prop :=
  ∃ narrowed, filtering.result = .ok narrowed ∧ narrowed.Within table

variable {table : Table}

namespace Table

theorem Within.refl (wellFormed : table.WellFormed) : table.Within table :=
  ⟨wellFormed, rfl, Nat.le_refl _⟩

theorem Within.trans {narrowed between : Table} (first : narrowed.Within between)
    (second : between.Within table) : narrowed.Within table where
  wellFormed := first.wellFormed
  schema := first.schema.trans second.schema
  size := Nat.le_trans first.size second.size

theorem WellFormed.filter_within (wellFormed : table.WellFormed) (mask : List Bool) :
    (table.filter mask).Within table := by
  refine ⟨wellFormed.filter mask, schema_filter mask, ?_⟩
  calc (mask.take table.size).count true
    _ ≤ (mask.take table.size).length := List.count_le_length
    _ ≤ table.size := List.length_take_le _ _

theorem hasColumn_iff {name : String} :
    table.hasColumn name = true ↔ name ∈ table.schema.map (·.1) := by
  rw [← exists_column?_iff]
  exact Option.isSome_iff_exists

theorem hasColumn_of_schema {other : Table} (sameSchema : table.schema = other.schema)
    (name : String) : table.hasColumn name = other.hasColumn name := by
  rw [Bool.eq_iff_iff, hasColumn_iff, hasColumn_iff, sameSchema]

end Table

namespace Filtering.Succeeds

theorem done {narrowed : Table} (within : narrowed.Within table) :
    (Filtering.done narrowed).Succeeds table :=
  ⟨narrowed, rfl, within⟩

theorem andThen {first : Filtering} {next : Table → Filtering} (succeeds : first.Succeeds table)
    (nextSucceeds : ∀ between, between.Within table → (next between).Succeeds between) :
    (first.andThen next).Succeeds table := by
  obtain ⟨between, given, within⟩ := succeeds
  obtain ⟨narrowed, nextGiven, nextWithin⟩ := nextSucceeds between within
  refine ⟨narrowed, ?_, nextWithin.trans within⟩
  simp only [Filtering.andThen, given, nextGiven]

theorem steps {α : Type} {step : α → Table → Filtering} {items : List α}
    (wellFormed : table.WellFormed)
    (succeeds : ∀ item table, table.WellFormed → (step item table).Succeeds table) :
    (Filtering.steps step items table).Succeeds table := by
  induction items generalizing table with
  | nil => exact done (.refl wellFormed)
  | cons item items ih =>
      exact (succeeds item table wellFormed).andThen fun _ within => ih within.wellFormed

theorem good_of_narrows {filtering : Filtering} {codes : List String}
    (narrows : Narrows codes table filtering) (harmless : "invalid_sum" ∉ codes) :
    ¬filtering.BadSum := by
  rintro ⟨warning, member, code⟩
  exact harmless (code ▸ narrows.known warning member)

theorem of_acts {fate : List Cell → RowFate} {filtering : Filtering} {codes : List String}
    (acts : Acts fate table filtering) (narrows : Narrows codes table filtering)
    (harmless : "invalid_sum" ∉ codes) (wellFormed : table.WellFormed) :
    filtering.Succeeds table := by
  obtain ⟨narrowed, given, rows⟩ := acts.rows (good_of_narrows narrows harmless)
  obtain ⟨narrowedWellFormed, sameSchema⟩ := narrows.keeps narrowed given
  refine ⟨narrowed, given, narrowedWellFormed, sameSchema, ?_⟩
  rw [← narrowedWellFormed.length_rows, ← wellFormed.length_rows, rows]
  exact List.length_filterMap_le _ _

end Filtering.Succeeds

namespace Constraint

theorem filter_succeeds {constraint : Constraint} (wellFormed : table.WellFormed)
    (known : ∀ field ∈ constraint.fields, field ∈ table.schema.map (·.1)) :
    (constraint.filter table).Succeeds table := by
  cases constraint with
  | nullGroups groups =>
      exact .of_acts (NullGroups.acts_filter wellFormed rfl known)
        (groups.narrows_filter wellFormed) (by decide) wellFormed
  | formulas list =>
      -- A sum that fails on some row drops them all, so here the mask decides and not the rows.
      refine .steps wellFormed fun written table wellFormed => ?_
      exact ⟨_, rfl, wellFormed.filter_within _⟩
  | combinations rules =>
      exact .of_acts (Combinations.acts_filter wellFormed rfl known)
        (.steps wellFormed fun rule _ => rule.narrows_apply) List.not_mem_nil wellFormed

theorem validate_of_schema {other : Table} (sameSchema : table.schema = other.schema)
    (constraint : Constraint) : constraint.validate table = constraint.validate other := by
  simp only [validate, Table.checkFields, Table.missingField?,
    Table.hasColumn_of_schema sameSchema]

theorem validate_eq_error {constraint : Constraint} {error : ConfigError}
    (failed : constraint.validate table = .error error) :
    ∃ field ∈ constraint.fields, table.hasColumn field = false ∧
      error = .missingField constraint.kind.name field := by
  unfold validate Table.checkFields at failed
  split at failed
  · rename_i field missing
    have absent := List.find?_some missing
    rw [Bool.not_eq_true'] at absent
    exact ⟨field, List.mem_of_find?_eq_some missing, absent, (Except.error.inj failed).symm⟩
  · cases failed

theorem known_of_validate {constraint : Constraint} (valid : constraint.validate table = .ok ()) :
    ∀ field ∈ constraint.fields, field ∈ table.schema.map (·.1) := by
  intro field member
  unfold validate Table.checkFields at valid
  split at valid
  · cases valid
  · rename_i none
    have present := List.find?_eq_none.mp none field member
    rw [← Table.hasColumn_iff]
    simpa using present

theorem apply_eq_stop {constraint : Constraint} {error : ConfigError}
    (failed : constraint.validate table = .error error) :
    constraint.apply table = .stop error := by
  simp only [apply, failed]

theorem apply_succeeds {constraint : Constraint} (wellFormed : table.WellFormed)
    (valid : constraint.validate table = .ok ()) : (constraint.apply table).Succeeds table := by
  simp only [apply, valid]
  exact filter_succeeds wellFormed (known_of_validate valid)

theorem forM_cons (check : Constraint → Except ConfigError Unit) (constraint : Constraint)
    (constraints : List Constraint) :
    (constraint :: constraints).forM check = (do check constraint; constraints.forM check) :=
  rfl

theorem forM_validate_of_schema {other : Table} (sameSchema : table.schema = other.schema)
    (constraints : List Constraint) :
    (constraints.forM fun constraint => constraint.validate table) =
      constraints.forM fun constraint => constraint.validate other := by
  simp only [validate_of_schema sameSchema]

theorem forM_validate_eq_error {constraints : List Constraint} {error : ConfigError}
    (failed : (constraints.forM fun constraint => constraint.validate table) = .error error) :
    ∃ constraint ∈ constraints, constraint.validate table = .error error := by
  induction constraints with
  | nil => cases failed
  | cons constraint constraints ih =>
      rw [forM_cons, bind_eq_error_iff] at failed
      rcases failed with here | ⟨_, _, later⟩
      · exact ⟨constraint, List.mem_cons_self .., here⟩
      · obtain ⟨other, member, found⟩ := ih later
        exact ⟨other, List.mem_cons_of_mem constraint member, found⟩

theorem steps_apply (constraints : List Constraint) (wellFormed : table.WellFormed) :
    (∃ error, (constraints.forM fun constraint => constraint.validate table) = .error error ∧
        (Filtering.steps Constraint.apply constraints table).result = .error error) ∨
      ((constraints.forM fun constraint => constraint.validate table) = .ok () ∧
        (Filtering.steps Constraint.apply constraints table).Succeeds table) := by
  induction constraints generalizing table with
  | nil => exact Or.inr ⟨rfl, .done (.refl wellFormed)⟩
  | cons constraint constraints ih =>
      rw [forM_cons]
      cases checked : constraint.validate table with
      | error error =>
          refine Or.inl ⟨error, rfl, ?_⟩
          simp only [Filtering.steps, apply_eq_stop checked, Filtering.andThen, Filtering.stop]
      | ok =>
          have first := apply_succeeds wellFormed checked
          obtain ⟨between, given, within⟩ := first
          have sameChecks := forM_validate_of_schema within.schema constraints
          rcases ih within.wellFormed with ⟨error, failed, stopped⟩ | ⟨valid, succeeds⟩
          · refine Or.inl ⟨error, sameChecks.symm.trans failed, ?_⟩
            simp only [Filtering.steps, Filtering.andThen, given, stopped]
          · refine Or.inr ⟨sameChecks.symm.trans valid, ?_⟩
            obtain ⟨narrowed, lastGiven, lastWithin⟩ := succeeds
            refine ⟨narrowed, ?_, lastWithin.trans within⟩
            simp only [Filtering.steps, Filtering.andThen, given, lastGiven]

end Constraint

namespace Pipeline

theorem apply_or_validate (pipeline : Pipeline) (wellFormed : table.WellFormed) :
    (∃ error, pipeline.validate table = .error error ∧
        (pipeline.apply table).result = .error error) ∨
      (pipeline.validate table = .ok () ∧ (pipeline.apply table).Succeeds table) :=
  Constraint.steps_apply pipeline.constraints wellFormed

theorem apply_eq_error_iff (pipeline : Pipeline) (wellFormed : table.WellFormed)
    {error : ConfigError} :
    (pipeline.apply table).result = .error error ↔ pipeline.validate table = .error error := by
  rcases pipeline.apply_or_validate wellFormed with ⟨first, failed, stopped⟩ | ⟨valid, succeeds⟩
  · rw [failed, stopped]
    simp
  · obtain ⟨narrowed, given, _⟩ := succeeds
    rw [valid, given]
    simp

theorem apply_succeeds {pipeline : Pipeline} (wellFormed : table.WellFormed)
    (valid : pipeline.validate table = .ok ()) : (pipeline.apply table).Succeeds table := by
  rcases pipeline.apply_or_validate wellFormed with ⟨first, failed, _⟩ | ⟨_, succeeds⟩
  · rw [valid] at failed
    cases failed
  · exact succeeds

end Pipeline

namespace CommandLine

theorem wellFormed_of_loadTable {files : Files} {path : String}
    (loaded : loadTable files path = .ok table) : table.WellFormed := by
  obtain ⟨bytes, _, read⟩ := bind_eq_ok_iff.mp loaded
  split at read
  · rename_i given readOk
    obtain rfl := Except.ok.inj read
    exact Csv.wellFormed_of_readTable readOk
  · cases read
  · cases read

theorem planCheck_eq_error_iff {files : Files} {config input : String} {error : CommandError} :
    planCheck files config (some input) = .error error ↔
      loadPipeline files config = .error error ∨
        ∃ pipeline, loadPipeline files config = .ok pipeline ∧
          (loadTable files input = .error error ∨
            ∃ table, loadTable files input = .ok table ∧
              ∃ cause, pipeline.validate table = .error cause ∧ .config cause = error) := by
  unfold planCheck
  simp only [bind_eq_error_iff, mapError_eq_error_iff, reduceCtorEq, and_false, exists_false,
    or_false]

theorem planFilter_eq_error_iff {files : Files} {config input output : String}
    {diagnostics : Option String} {error : CommandError} :
    planFilter files config input output diagnostics = .error error ↔
      loadPipeline files config = .error error ∨
        ∃ pipeline, loadPipeline files config = .ok pipeline ∧
          (loadTable files input = .error error ∨
            ∃ table, loadTable files input = .ok table ∧
              ∃ cause, (pipeline.apply table).result = .error cause ∧ .config cause = error) := by
  unfold planFilter
  simp only [bind_eq_error_iff, mapError_eq_error_iff, reduceCtorEq, and_false, exists_false,
    or_false]

/-- The commands that check a file and that filter it fail alike. -/
theorem planCheck_eq_error_iff_planFilter {files : Files} {config input output : String}
    {diagnostics : Option String} {error : CommandError} :
    planCheck files config (some input) = .error error ↔
      planFilter files config input output diagnostics = .error error := by
  rw [planCheck_eq_error_iff, planFilter_eq_error_iff]
  refine or_congr_right (exists_congr fun pipeline => and_congr_right fun _ => ?_)
  refine or_congr_right (exists_congr fun table => and_congr_right fun loaded => ?_)
  refine exists_congr fun cause => and_congr_left fun _ => ?_
  exact (pipeline.apply_eq_error_iff (wellFormed_of_loadTable loaded)).symm

end CommandLine

namespace Pipeline

open CommandLine

/-- Filtering fails exactly when the check of the fields does, and then with the same missing field;
otherwise the columns stay. So a file can be filtered exactly when it passes its check. -/
theorem apply_fails_as_validated (pipeline : Pipeline) (wellFormed : table.WellFormed) :
    (∀ error, (pipeline.apply table).result = .error error ↔
        pipeline.validate table = .error error) ∧
      (∀ error, (pipeline.apply table).result = .error error →
        ∃ constraint ∈ pipeline.constraints, ∃ field ∈ constraint.fields,
          table.hasColumn field = false ∧ error = .missingField constraint.kind.name field) ∧
      (∀ narrowed, (pipeline.apply table).result = .ok narrowed →
        narrowed.names = table.names ∧ narrowed.schema = table.schema ∧
          narrowed.size ≤ table.size) ∧
      ∀ (files : Files) (config input output : String) (diagnostics : Option String)
        (error : CommandError),
        planCheck files config (some input) = .error error ↔
          planFilter files config input output diagnostics = .error error := by
  refine ⟨fun error => pipeline.apply_eq_error_iff wellFormed, ?_, ?_, ?_⟩
  · intro error stopped
    have failed := (pipeline.apply_eq_error_iff wellFormed).mp stopped
    obtain ⟨constraint, member, here⟩ := Constraint.forM_validate_eq_error failed
    exact ⟨constraint, member, Constraint.validate_eq_error here⟩
  · intro narrowed given
    rcases pipeline.apply_or_validate wellFormed with ⟨error, _, stopped⟩ | ⟨_, succeeds⟩
    · rw [stopped] at given
      cases given
    · obtain ⟨other, otherGiven, within⟩ := succeeds
      obtain rfl := Except.ok.inj (given.symm.trans otherGiven)
      refine ⟨?_, within.schema, within.size⟩
      rw [Table.names_eq_schema, within.schema, ← Table.names_eq_schema]
  · intro files config input output diagnostics error
    exact planCheck_eq_error_iff_planFilter

theorem apply_fails_as_validated_late :
    let table : Table :=
      ⟨[⟨"age", .int, [.int 30, .float Number.notANumber]⟩, ⟨"team", .text, [.null, .text "b"]⟩,
        ⟨"score", .float, [.null, .float 1]⟩], 2⟩
    let pipeline : Pipeline :=
      ⟨[.nullGroups ⟨[⟨"age", .spread ["team"] ["score", "team"]⟩]⟩,
        .formulas ⟨[⟨"height > 1", .compare (.field "height") .greater (.literal (.int 1))⟩]⟩],
        .empty⟩
    table.WellFormed ∧
      (pipeline.apply table).result = .error (.missingField "field_constraints" "height") ∧
      pipeline.validate table = .error (.missingField "field_constraints" "height") := by
  intro table pipeline
  have wellFormed : table.WellFormed := by decide +kernel
  have failed : pipeline.validate table = .error (.missingField "field_constraints" "height") := by
    rfl
  exact ⟨wellFormed, ((pipeline.apply_fails_as_validated wellFormed).1 _).mpr failed, failed⟩

end Pipeline

end TableSieve
