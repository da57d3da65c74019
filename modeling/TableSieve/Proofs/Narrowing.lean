import TableSieve.Constraint.Registry
import TableSieve.Proofs.Appending

/-!
What every filtering keeps. A constraint that gives a table gives a well-formed one of the schema of
the table it was given, and the codes of its warnings are known.
-/

namespace TableSieve

namespace Table

variable {table : Table}

def setCells (table : Table) (name : String) (cells : List Cell) : Table :=
  { table with columns := table.columns.map fun other =>
      if other.name == name then { other with cells := cells } else other }

theorem schema_setCells (name : String) (cells : List Cell) :
    (table.setCells name cells).schema = table.schema := by
  simp only [schema, setCells, List.map_map]
  apply List.map_congr_left
  intro column _
  simp only [Function.comp_apply]
  split <;> rfl

theorem WellFormed.setCells (wellFormed : table.WellFormed) {name : String} {column : Column}
    (found : table.column? name = some column) {cells : List Cell}
    (length : cells.length = table.size)
    (accepted : ∀ cell ∈ cells, column.type.accepts cell = true) :
    (table.setCells name cells).WellFormed := by
  have known : ∀ other ∈ table.columns, other.name = name → other = column := by
    intro other member same
    have same := same ▸ wellFormed.column?_name member
    exact Option.some.inj (same.symm.trans found)
  refine ⟨?_, ?_, ?_⟩
  · have names : (table.setCells name cells).names = table.names := by
      rw [names_eq_schema, names_eq_schema, schema_setCells]
    have distinct : (table.setCells name cells).names.Nodup := names ▸ wellFormed.names_distinct
    exact distinct
  · intro changed member
    obtain ⟨other, present, rfl⟩ := List.mem_map.mp member
    split
    · exact length
    · exact wellFormed.lengths other present
  · intro changed member
    obtain ⟨other, present, rfl⟩ := List.mem_map.mp member
    split
    · rename_i same
      rw [known other present (by simpa using same)]
      exact accepted
    · exact wellFormed.cells other present

theorem column_eq_ok_iff {name : String} {column : Column} :
    table.column name = .ok column ↔ table.column? name = some column := by
  unfold Table.column
  cases table.column? name <;> simp

theorem WellFormed.withCells_eq_ok_iff (wellFormed : table.WellFormed) {name : String}
    {cells : List Cell} {changed : Table} :
    table.withCells name cells = .ok changed ↔
      ∃ column, table.column? name = some column ∧ cells.length = table.size ∧
        ∃ fit, cells.mapM column.type.cast? = some fit ∧ changed = table.setCells name fit := by
  simp only [withCells, bind_eq_ok_iff, column_eq_ok_iff]
  refine exists_congr fun column => and_congr_right fun found => ?_
  by_cases length : cells.length = table.size
  · have filled : ∀ fit, (⟨table.columns.map fun other =>
        if other.name == name then ⟨name, column.type, fit⟩ else other, table.size⟩ : Table) =
          table.setCells name fit := by
      intro fit
      refine congrArg (Table.mk · table.size) (List.map_congr_left ?_)
      intro other member
      split
      · rename_i same
        obtain rfl : other.name = name := by simpa using same
        rw [wellFormed.column?_name member] at found
        obtain rfl := Option.some.inj found
        rfl
      · rfl
    simp only [length, ne_eq, not_true_eq_false, if_false, true_and, bind_eq_ok_iff,
      Column.ofCells_eq_ok_iff]
    constructor
    · rintro ⟨_, ⟨fit, cast, rfl⟩, done⟩
      exact ⟨fit, cast, (Except.ok.inj done).symm.trans (filled fit)⟩
    · rintro ⟨fit, cast, rfl⟩
      exact ⟨_, ⟨fit, cast, rfl⟩, congrArg Except.ok (filled fit)⟩
  · simp [length]

theorem WellFormed.of_withCells (wellFormed : table.WellFormed) {name : String}
    {cells : List Cell} {changed : Table} (done : table.withCells name cells = .ok changed) :
    changed.WellFormed ∧ changed.schema = table.schema := by
  obtain ⟨column, found, length, fit, cast, rfl⟩ := wellFormed.withCells_eq_ok_iff.mp done
  have fitLength : fit.length = table.size := (length_of_mapM cast).trans length
  exact ⟨wellFormed.setCells found fitLength (Column.accepts_of_mapM_cast? cast),
    schema_setCells _ _⟩

end Table

/-! What a filtering keeps of a table, and the codes of its warnings. -/

structure Narrows (codes : List String) (table : Table) (filtering : Filtering) : Prop where
  keeps : ∀ narrowed, filtering.result = .ok narrowed →
    narrowed.WellFormed ∧ narrowed.schema = table.schema
  known : ∀ warning ∈ filtering.warnings, warning.code ∈ codes

namespace Narrows

variable {codes : List String} {table : Table}

theorem stop (error : ConfigError) : Narrows codes table (.stop error) where
  keeps := by simp [Filtering.stop]
  known := by simp [Filtering.stop]

theorem done {narrowed : Table} (wellFormed : narrowed.WellFormed)
    (sameSchema : narrowed.schema = table.schema) : Narrows codes table (.done narrowed) where
  keeps := by
    intro other given
    obtain rfl := Except.ok.inj given
    exact ⟨wellFormed, sameSchema⟩
  known := by simp [Filtering.done]

theorem noting (wellFormed : table.WellFormed) {warning : Warning}
    (known : warning.code ∈ codes) : Narrows codes table (.noting warning table) where
  keeps := (done wellFormed rfl : Narrows [] table (.done table)).keeps
  known := by simpa [Filtering.noting] using known

theorem ofTable {changed : Except TableError Table}
    (keeps : ∀ narrowed, changed = .ok narrowed →
      narrowed.WellFormed ∧ narrowed.schema = table.schema) :
    Narrows codes table (.ofTable changed) := by
  cases changed with
  | error error => exact stop _
  | ok narrowed => exact done (keeps narrowed rfl).1 (keeps narrowed rfl).2

theorem andThen {first : Filtering} {next : Table → Filtering}
    (firstNarrows : Narrows codes table first)
    (nextNarrows : ∀ between, between.WellFormed → Narrows codes between (next between)) :
    Narrows codes table (first.andThen next) := by
  unfold Filtering.andThen
  split
  · exact firstNarrows
  · rename_i between given
    obtain ⟨wellFormed, sameSchema⟩ := firstNarrows.keeps between given
    have later := nextNarrows between wellFormed
    refine ⟨?_, ?_⟩
    · intro narrowed lastOk
      obtain ⟨narrowedWellFormed, narrowedSchema⟩ := later.keeps narrowed lastOk
      exact ⟨narrowedWellFormed, narrowedSchema.trans sameSchema⟩
    · intro warning member
      rcases List.mem_append.mp member with early | late
      · exact firstNarrows.known warning early
      · exact later.known warning late

theorem steps {α : Type} {step : α → Table → Filtering} {items : List α}
    (wellFormed : table.WellFormed)
    (narrows : ∀ item table, table.WellFormed → Narrows codes table (step item table)) :
    Narrows codes table (Filtering.steps step items table) := by
  induction items generalizing table with
  | nil => exact done wellFormed rfl
  | cons item items ih => exact (narrows item table wellFormed).andThen fun _ => ih

theorem mono {more : List String} {filtering : Filtering}
    (narrows : Narrows codes table filtering) (fewer : codes ⊆ more) :
    Narrows more table filtering :=
  ⟨narrows.keeps, fun warning member => fewer (narrows.known warning member)⟩

end Narrows

/-! The constraints narrow. -/

variable {table : Table}

namespace FormulaList

def codes : List String :=
  ["unknown_field", "unparseable_literal", "invalid_operand", "invalid_sum", "incomparable_types"]

theorem narrows_applyFormula (written : WrittenFormula) (wellFormed : table.WellFormed) :
    Narrows codes table (applyFormula written table) := by
  have kept : Narrows codes table (.done (table.filter (written.formula.evaluate table).mask)) :=
    .done (wellFormed.filter _) (Table.schema_filter _)
  refine ⟨kept.keeps, ?_⟩
  intro warning member
  obtain ⟨issue, _, rfl⟩ := List.mem_map.mp member
  cases issue <;> simp [warningOf, Issue.code, codes]

end FormulaList

theorem CombinationRule.narrows_apply (rule : CombinationRule) (wellFormed : table.WellFormed) :
    Narrows [] table (rule.apply table) := by
  unfold CombinationRule.apply
  split
  · exact .stop _
  · exact .done (wellFormed.filter _) (Table.schema_filter _)

namespace NullGroups

def codes : List String :=
  ["self_reference", "incompatible_dtype"]

theorem narrows_erase (main related : String) (wellFormed : table.WellFormed) :
    Narrows codes table (erase main related table) := by
  unfold erase
  split
  · exact .noting wellFormed (by simp [selfReference, codes])
  · refine .ofTable fun narrowed done => ?_
    simp only [eraseInto, bind_eq_ok_iff] at done
    obtain ⟨_, _, _, _, filled⟩ := done
    exact wellFormed.of_withCells filled

theorem narrows_copy (main related : String) (wellFormed : table.WellFormed) :
    Narrows codes table (copy main related table) := by
  unfold copy
  split
  · exact .noting wellFormed (by simp [selfReference, codes])
  · split
    · split
      · exact .ofTable fun _ done => wellFormed.of_withCells done
      · exact .noting wellFormed (by simp [incompatible, codes])
    · exact .stop _
    · exact .stop _

theorem narrows_steps_erase (main : String) (erased : List String)
    (wellFormed : table.WellFormed) :
    Narrows codes table (Filtering.steps (erase main) erased table) :=
  .steps wellFormed fun related _ wellFormed => narrows_erase main related wellFormed

theorem narrows_applyRule (rule : NullRule) (wellFormed : table.WellFormed) :
    Narrows codes table (applyRule rule table) := by
  unfold applyRule
  split
  · exact .done wellFormed rfl
  · exact (narrows_steps_erase rule.main _ wellFormed).andThen fun _ wellFormed =>
      .steps wellFormed fun related _ wellFormed => narrows_copy rule.main related wellFormed

theorem narrows_filter (groups : NullGroups) (wellFormed : table.WellFormed) :
    Narrows codes table (groups.filter table) := by
  unfold NullGroups.filter
  split
  · exact .stop _
  · rename_i keep _
    have kept : Narrows codes table (.done (table.filter keep)) :=
      .done (wellFormed.filter keep) (Table.schema_filter keep)
    exact kept.andThen fun _ wellFormed =>
      .steps wellFormed fun rule _ wellFormed => narrows_applyRule rule wellFormed

end NullGroups

def Constraint.codes : List String :=
  NullGroups.codes ++ FormulaList.codes

theorem Constraint.narrows_apply (constraint : Constraint) (wellFormed : table.WellFormed) :
    Narrows codes table (constraint.apply table) := by
  unfold Constraint.apply
  split
  · exact .stop _
  · cases constraint with
    | nullGroups groups =>
        exact (groups.narrows_filter wellFormed).mono (List.subset_append_left ..)
    | formulas list =>
        refine .mono (.steps wellFormed fun written _ => ?_) (List.subset_append_right ..)
        exact FormulaList.narrows_applyFormula written
    | combinations rules =>
        refine .mono (.steps wellFormed fun rule _ => ?_) (List.nil_subset _)
        exact rule.narrows_apply

theorem Pipeline.narrows_apply (pipeline : Pipeline) (wellFormed : table.WellFormed) :
    Narrows Constraint.codes table (pipeline.apply table) :=
  .steps wellFormed fun constraint _ wellFormed => constraint.narrows_apply wellFormed

end TableSieve
