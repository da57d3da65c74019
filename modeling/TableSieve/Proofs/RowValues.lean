import TableSieve.Formula.Evaluation
import TableSieve.Proofs.FormulaNodes
import TableSieve.Proofs.Rows

/-!
Values of formulas on one row. Cells compare by their kinds, an operand has a value on a row, and a
predicate holds there or not. The values and marks that evaluation finds column by column agree with
those on the rows: they come from all rows at once, and a failed sum on one row ends them all.
-/

namespace TableSieve

open TableSieve.Calendar TableSieve.Number

inductive CellKind
  | quantity
  | text
  | moment
  deriving DecidableEq

namespace Cell

def kind? : Cell → Option CellKind
  | .null => none
  | .bool _ | .int _ => some .quantity
  | .float value => if isNaN value then none else some .quantity
  | .text _ => some .text
  | .date _ | .dateTime _ => some .moment

theorem isMissing_eq_isNone_kind? (cell : Cell) : cell.isMissing = cell.kind?.isNone := by
  cases cell with
  | float value => cases missing : isNaN value <;> simp [isMissing, kind?, missing]
  | _ => rfl

theorem isSome_number? (cell : Cell) : cell.number?.isSome = (cell.kind? == some .quantity) := by
  cases cell with
  | float value => cases missing : isNaN value <;> simp [number?, kind?, missing]
  | _ => rfl

theorem isSome_moment? (cell : Cell) : cell.moment?.isSome = (cell.kind? == some .moment) := by
  cases cell with
  | float value => cases missing : isNaN value <;> simp [moment?, kind?, missing]
  | _ => rfl

theorem isSome_compareNumbers (left right : Cell) :
    (left.compareNumbers right).isSome = (left.number?.isSome && right.number?.isSome) := by
  unfold compareNumbers
  cases left.number? <;> cases right.number? <;> rfl

theorem isSome_compareMoments (left right : Cell) :
    (left.compareMoments right).isSome = (left.moment?.isSome && right.moment?.isSome) := by
  unfold compareMoments
  cases left.moment? <;> cases right.moment? <;> rfl

theorem isSome_compare_iff {left right : Cell} :
    (left.compare right).isSome = true ↔
      ∃ kind, left.kind? = some kind ∧ right.kind? = some kind := by
  have byParts : ((left.compareNumbers right).or (left.compareMoments right)).isSome = true ↔
      (left.kind? = some .quantity ∧ right.kind? = some .quantity) ∨
        (left.kind? = some .moment ∧ right.kind? = some .moment) := by
    simp [isSome_compareNumbers, isSome_compareMoments, isSome_number?, isSome_moment?]
  unfold compare
  split
  · simp [kind?]
  · simp [kind?]
  · rename_i notTexts
    rw [byParts]
    constructor
    · rintro (both | both)
      · exact ⟨_, both⟩
      · exact ⟨_, both⟩
    · rintro ⟨kind, leftKind, rightKind⟩
      cases kind with
      | quantity => exact Or.inl ⟨leftKind, rightKind⟩
      | moment => exact Or.inr ⟨leftKind, rightKind⟩
      | text =>
          exfalso
          have textOf : ∀ cell : Cell, cell.kind? = some .text → ∃ value, cell = .text value := by
            intro cell kind
            cases cell <;> simp_all [kind?]
          obtain ⟨leftValue, rfl⟩ := textOf left leftKind
          obtain ⟨rightValue, rfl⟩ := textOf right rightKind
          exact notTexts leftValue rightValue rfl rfl

def clashes (left right : Cell) : Bool :=
  match left.kind?, right.kind? with
  | some kind, some other => kind != other
  | _, _ => false

/-- Whether a comparison holds of two cells: never if one is missing, by the order if they are of one
kind, and otherwise only if it asks them to be unequal. -/
def comparesAs (left : Cell) (comparison : Comparison) (right : Cell) : Bool :=
  match left.kind?, right.kind? with
  | some kind, some other =>
    if kind = other then (left.compare right).any comparison.holds else comparison == .notEqual
  | _, _ => false

theorem compare_eq_none {left right : Cell} (different : left.kind? ≠ right.kind?) :
    left.compare right = none := by
  rw [← Option.not_isSome_iff_eq_none, isSome_compare_iff]
  rintro ⟨kind, leftKind, rightKind⟩
  exact different (leftKind.trans rightKind.symm)

theorem isIncomparable_eq_clashes (left right : Cell) :
    left.isIncomparable right = left.clashes right := by
  unfold isIncomparable clashes
  rw [isMissing_eq_isNone_kind?, isMissing_eq_isNone_kind?]
  cases leftKind : left.kind? with
  | none => rfl
  | some kind =>
      cases rightKind : right.kind? with
      | none => rfl
      | some other =>
          by_cases same : kind = other
          · have compares := isSome_compare_iff.mpr ⟨kind, leftKind, same ▸ rightKind⟩
            simp [same, Option.isNone_eq_false_iff.mpr compares]
          · have differs : left.compare right = none := compare_eq_none (by simp_all)
            simp [same, differs]

theorem passes_eq_comparesAs (left : Cell) (comparison : Comparison) (right : Cell) :
    comparison.passes left right = left.comparesAs comparison right := by
  unfold Comparison.passes comparesAs
  rw [isMissing_eq_isNone_kind?, isMissing_eq_isNone_kind?]
  cases leftKind : left.kind? with
  | none => rfl
  | some kind =>
      cases rightKind : right.kind? with
      | none => rfl
      | some other =>
          by_cases same : kind = other
          · obtain ⟨order, compares⟩ := Option.isSome_iff_exists.mp
              (isSome_compare_iff.mpr ⟨kind, leftKind, same ▸ rightKind⟩)
            simp [same, compares]
          · have differs : left.compare right = none := compare_eq_none (by simp_all)
            simp [same, differs]

end Cell

abbrev Table.onRow (table : Table) (row : List Cell) : String → Option Cell :=
  cellAt table.names row

namespace Formula

def valueOn (cells : String → Option Cell) : Formula → Except Issue Cell
  | .field name =>
    match cells name with
    | some cell => .ok cell
    | none => .error (.unknownField name)
  | .literal value => value.cell
  | .sum left right => do
    let leftCell ← left.valueOn cells
    let rightCell ← right.valueOn cells
    match leftCell.add? rightCell with
    | some cell => .ok cell
    | none => .error (.badSum (.sum left right))
  | other => .error (.notAValue other)

def holdsOn (cells : String → Option Cell) : Formula → Except Issue Bool
  | .compare left comparison right => do
    let leftCell ← left.valueOn cells
    let rightCell ← right.valueOn cells
    .ok (leftCell.comparesAs comparison rightCell)
  | .nullTest operand negated => do
    let cell ← operand.valueOn cells
    .ok (cell.isMissing != negated)
  | .both left right => do
    let leftHolds ← left.holdsOn cells
    let rightHolds ← right.holdsOn cells
    .ok (leftHolds && rightHolds)
  | .either left right => do
    let leftHolds ← left.holdsOn cells
    let rightHolds ← right.holdsOn cells
    .ok (leftHolds || rightHolds)
  | .group inner => inner.holdsOn cells
  | bare => do
    let cell ← bare.valueOn cells
    .ok cell.isTruthy

/-! The results over the columns of a table, as plain values. -/

def cellsOf (table : Table) (formula : Formula) : Except Issue (List Cell) :=
  (formula.resolve table).result.map fun operand => operand.values table.size

def marksOf (table : Table) (formula : Formula) : Except Issue (List Bool) :=
  (formula.mask table).result

end Formula

namespace Progress

variable {α β : Type}

theorem result_andThen (first : Progress α) (next : α → Progress β) :
    (first.andThen next).result = (do (next (← first.result)).result) := by
  unfold andThen
  cases first.result <;> rfl

end Progress

namespace Formula

variable {table : Table}

theorem cellsOf_field (name : String) :
    cellsOf table (.field name) =
      match table.column? name with
      | some column => .ok column.cells
      | none => .error (.unknownField name) := by
  unfold cellsOf resolve
  cases table.column? name <;> rfl

theorem cellsOf_literal (value : Literal) :
    cellsOf table (.literal value) = value.cell.map (List.replicate table.size) := by
  unfold cellsOf resolve
  cases value.cell <;> rfl

theorem cellsOf_sum (left right : Formula) :
    cellsOf table (.sum left right) = (do
      let lefts ← cellsOf table left
      let rights ← cellsOf table right
      match (lefts.zip rights).mapM fun pair => pair.1.add? pair.2 with
      | some sums => .ok sums
      | none => .error (.badSum (.sum left right))) := by
  simp only [cellsOf, resolve, Progress.result_andThen]
  cases (left.resolve table).result with
  | error issue => rfl
  | ok lefts =>
      cases (right.resolve table).result with
      | error issue => rfl
      | ok rights =>
          simp only [bind, Except.bind, Except.map]
          cases ((lefts.values table.size).zip (rights.values table.size)).mapM
            fun pair => pair.1.add? pair.2 <;> rfl

theorem cellsOf_predicate {formula : Formula} (predicate : formula.isPredicate = true) :
    cellsOf table formula = .error (.notAValue formula) := by
  cases formula with
  | field _ | literal _ | sum _ _ => simp [isPredicate] at predicate
  | _ => rfl

theorem marksOf_compare (left : Formula) (comparison : Comparison) (right : Formula) :
    marksOf table (.compare left comparison right) = (do
      let lefts ← cellsOf table left
      let rights ← cellsOf table right
      .ok (List.zipWith (fun cell other => cell.comparesAs comparison other) lefts rights)) := by
  simp only [marksOf, cellsOf, mask, Progress.result_andThen, Cell.passes_eq_comparesAs]
  cases (left.resolve table).result with
  | error issue => rfl
  | ok lefts =>
      cases (right.resolve table).result with
      | error issue => rfl
      | ok rights =>
          simp only [bind, Except.bind, Except.map, List.map_zip_eq_zipWith]
          rfl

theorem marksOf_nullTest (operand : Formula) (negated : Bool) :
    marksOf table (.nullTest operand negated) = (do
      let cells ← cellsOf table operand
      .ok (cells.map fun cell => cell.isMissing != negated)) := by
  simp only [marksOf, cellsOf, mask, Progress.result_andThen]
  cases (operand.resolve table).result <;> rfl

theorem marksOf_both (left right : Formula) :
    marksOf table (.both left right) = (do
      let lefts ← marksOf table left
      let rights ← marksOf table right
      .ok (List.zipWith (· && ·) lefts rights)) := by
  simp only [marksOf, mask, Progress.result_andThen, Progress.done]

theorem marksOf_either (left right : Formula) :
    marksOf table (.either left right) = (do
      let lefts ← marksOf table left
      let rights ← marksOf table right
      .ok (List.zipWith (· || ·) lefts rights)) := by
  simp only [marksOf, mask, Progress.result_andThen, Progress.done]

theorem marksOf_bare {formula : Formula} (bare : formula.isPredicate = false) :
    marksOf table formula = (do
      let cells ← cellsOf table formula
      .ok (cells.map Cell.isTruthy)) := by
  have same : marksOf table formula = (do
      let cells ← (formula.resolve table).result
      .ok ((cells.values table.size).map Cell.isTruthy)) := by
    cases formula with
    | field _ | literal _ | sum _ _ =>
        simp only [marksOf, mask, Progress.result_andThen, Progress.done]
    | _ => simp [isPredicate] at bare
  rw [same, cellsOf]
  cases (formula.resolve table).result <;> rfl

end Formula

/-! How a result over all rows agrees with the results on each. -/

section Agreement

variable {α β γ : Type} {rows : List (List Cell)}

/-- Values come from all rows, a failed sum from one of them, and any other issue arises on all. -/
inductive Agrees (rows : List (List Cell)) (onRow : List Cell → Except Issue α) :
    Except Issue (List α) → Prop
  | values {values : List α} (same : rows.map onRow = values.map .ok) :
      Agrees rows onRow (.ok values)
  | badSum {formula : Formula} {row : List Cell} (member : row ∈ rows)
      (fails : onRow row = .error (.badSum formula)) : Agrees rows onRow (.error (.badSum formula))
  | everywhere {issue : Issue} (fatal : issue.isFatal = true)
      (notSum : ∀ formula, issue ≠ .badSum formula)
      (fails : ∀ row ∈ rows, onRow row = .error issue) : Agrees rows onRow (.error issue)

variable {first : List Cell → Except Issue α} {second : List Cell → Except Issue β}
  {lefts : List α} {rights : List β}

theorem map_pairs (leftSame : rows.map first = lefts.map .ok)
    (rightSame : rows.map second = rights.map .ok)
    (join : Except Issue α → Except Issue β → γ) :
    (rows.map fun row => join (first row) (second row)) =
      (lefts.zip rights).map fun pair => join (.ok pair.1) (.ok pair.2) := by
  induction rows generalizing lefts rights with
  | nil =>
      have none : lefts = [] := by simpa [eq_comm] using leftSame
      simp [none]
  | cons row rows ih =>
      cases lefts with
      | nil => simp at leftSame
      | cons left lefts =>
          cases rights with
          | nil => simp at rightSame
          | cons right rights =>
              simp only [List.map_cons, List.cons.injEq] at leftSame rightSame
              simp [leftSame.1, rightSame.1, ih leftSame.2 rightSame.2]

theorem mem_zip_iff (leftSame : rows.map first = lefts.map .ok)
    (rightSame : rows.map second = rights.map .ok) {left : α} {right : β} :
    (left, right) ∈ lefts.zip rights ↔
      ∃ row ∈ rows, first row = .ok left ∧ second row = .ok right := by
  have pairs := map_pairs leftSame rightSame Prod.mk
  constructor
  · intro member
    have listed := List.mem_map_of_mem (f := fun pair : α × β =>
      ((.ok pair.1, .ok pair.2) : Except Issue α × Except Issue β)) member
    rw [← pairs] at listed
    obtain ⟨row, present, same⟩ := List.mem_map.mp listed
    exact ⟨row, present, (Prod.mk.inj same).1, (Prod.mk.inj same).2⟩
  · rintro ⟨row, present, leftOk, rightOk⟩
    have listed := List.mem_map_of_mem (f := fun row => (first row, second row)) present
    rw [pairs] at listed
    obtain ⟨pair, member, same⟩ := List.mem_map.mp listed
    simp only [leftOk, rightOk, Prod.mk.injEq, Except.ok.injEq] at same
    rwa [← same.1, ← same.2]

namespace Agrees

theorem map_onRow {values : List α} (agrees : Agrees rows first (.ok values)) :
    rows.map first = values.map .ok := by
  cases agrees with
  | values same => exact same

theorem bind {result : Except Issue (List α)} (agrees : Agrees rows first result)
    {next : List Cell → α → Except Issue γ} {whole : List α → Except Issue (List γ)}
    (rest : ∀ values, rows.map first = values.map .ok →
      Agrees rows (fun row => do next row (← first row)) (whole values)) :
    Agrees rows (fun row => do next row (← first row)) (do whole (← result)) := by
  cases agrees with
  | values same => exact rest _ same
  | badSum member fails => exact .badSum member (by simp [fails, Bind.bind, Except.bind])
  | everywhere fatal notSum fails =>
      refine .everywhere fatal notSum ?_
      intro row member
      simp [fails row member, Bind.bind, Except.bind]

theorem bind_right (leftSame : rows.map first = lefts.map .ok) {result : Except Issue (List β)}
    (agrees : Agrees rows second result) {next : α → β → Except Issue γ}
    {whole : List β → Except Issue (List γ)}
    (rest : ∀ values, rows.map second = values.map .ok →
      Agrees rows (fun row => do next (← first row) (← second row)) (whole values)) :
    Agrees rows (fun row => do next (← first row) (← second row)) (do whole (← result)) := by
  have leftOk : ∀ row ∈ rows, ∃ value, first row = .ok value := by
    intro row member
    have listed := List.mem_map_of_mem (f := first) member
    rw [leftSame] at listed
    obtain ⟨value, _, same⟩ := List.mem_map.mp listed
    exact ⟨value, same.symm⟩
  cases agrees with
  | values same => exact rest _ same
  | badSum member fails =>
      obtain ⟨value, given⟩ := leftOk _ member
      exact .badSum member (by simp [given, fails, Bind.bind, Except.bind])
  | everywhere fatal notSum fails =>
      refine .everywhere fatal notSum ?_
      intro row member
      obtain ⟨value, given⟩ := leftOk row member
      simp [given, fails row member, Bind.bind, Except.bind]

theorem join {leftResult : Except Issue (List α)} {rightResult : Except Issue (List β)}
    (left : Agrees rows first leftResult) (right : Agrees rows second rightResult)
    (join : α → β → γ) :
    Agrees rows (fun row => do .ok (join (← first row) (← second row)))
      (do .ok (List.zipWith join (← leftResult) (← rightResult))) := by
  refine left.bind fun lefts leftSame => ?_
  refine right.bind_right leftSame fun rights rightSame => ?_
  apply Agrees.values
  have pairs := map_pairs leftSame rightSame fun left right : Except Issue _ =>
    (do .ok (join (← left) (← right)) : Except Issue γ)
  refine pairs.trans ?_
  simp [Bind.bind, Except.bind, ← List.map_uncurry_zip_eq_zipWith]

theorem map {result : Except Issue (List α)} (agrees : Agrees rows first result)
    (change : α → γ) :
    Agrees rows (fun row => do .ok (change (← first row))) (do .ok ((← result).map change)) := by
  refine agrees.bind fun values same => ?_
  apply Agrees.values
  have changed := congrArg (List.map fun value : Except Issue α => do .ok (change (← value))) same
  simpa [Function.comp_def, Bind.bind, Except.bind] using changed

end Agrees

end Agreement

namespace Formula

variable {table : Table}

theorem cell_eq_error {value : Literal} {issue : Issue} (failed : value.cell = .error issue) :
    issue.isFatal = true ∧ ∀ formula, issue ≠ .badSum formula := by
  cases value with
  | date text =>
      simp only [Literal.cell] at failed
      split at failed
      · simp at failed
      · rename_i error _
        obtain rfl := Except.error.inj failed
        exact ⟨rfl, fun formula equal => by simp at equal⟩
  | _ => simp [Literal.cell] at failed

theorem cellsOf_agrees (wellFormed : table.WellFormed) (formula : Formula) :
    Agrees table.rows (fun row => formula.valueOn (table.onRow row)) (cellsOf table formula) := by
  induction formula with
  | field name =>
      rw [cellsOf_field]
      cases found : table.column? name with
      | none =>
          refine .everywhere rfl (fun formula equal => by simp at equal) ?_
          intro row _
          simp [valueOn, Table.onRow, Table.cellAt_eq_none found]
      | some column =>
          apply Agrees.values
          have cells := congrArg (List.map fun cell? : Option Cell =>
            match cell? with
            | some cell => Except.ok cell
            | none => .error (Issue.unknownField name)) (wellFormed.map_cellAt found)
          simpa [Function.comp_def, valueOn] using cells
  | literal value =>
      rw [cellsOf_literal]
      cases given : value.cell with
      | error issue =>
          obtain ⟨fatal, notSum⟩ := cell_eq_error given
          refine .everywhere fatal notSum ?_
          intro row _
          simp [valueOn, given]
      | ok cell =>
          apply Agrees.values
          simp [valueOn, given, List.map_const', wellFormed.length_rows]
  | sum left right leftAgrees rightAgrees =>
      rw [cellsOf_sum]
      refine leftAgrees.bind fun lefts leftSame => ?_
      refine rightAgrees.bind_right leftSame fun rights rightSame => ?_
      split
      · rename_i sums added
        apply Agrees.values
        have pairs := map_pairs leftSame rightSame fun leftValue rightValue => do
          match (← leftValue).add? (← rightValue) with
          | some cell => .ok cell
          | none => .error (.badSum (.sum left right))
        have sumOf := congrArg (List.map fun sum? : Option Cell =>
          match sum? with
          | some cell => Except.ok cell
          | none => .error (Issue.badSum (.sum left right))) (mapM_eq_some_iff.mp added)
        refine pairs.trans ?_
        simpa [Function.comp_def, bind, Except.bind] using sumOf
      · rename_i fails
        obtain ⟨⟨leftCell, rightCell⟩, member, pairFails⟩ := mapM_eq_none_iff.mp fails
        obtain ⟨row, present, leftOk, rightOk⟩ := (mem_zip_iff leftSame rightSame).mp member
        refine .badSum present ?_
        simp only [leftOk, rightOk, bind, Except.bind, pairFails]
  | _ =>
      rw [cellsOf_predicate rfl]
      exact .everywhere rfl (fun formula equal => by simp at equal) fun row _ => rfl

theorem marksOf_agrees (wellFormed : table.WellFormed) (formula : Formula) :
    Agrees table.rows (fun row => formula.holdsOn (table.onRow row)) (marksOf table formula) := by
  have bareAgrees : ∀ bare : Formula, bare.isPredicate = false →
      Agrees table.rows (fun row => bare.holdsOn (table.onRow row)) (marksOf table bare) := by
    intro bare notPredicate
    rw [marksOf_bare notPredicate]
    cases bare with
    | field _ | literal _ | sum _ _ => exact (cellsOf_agrees wellFormed _).map Cell.isTruthy
    | _ => simp [isPredicate] at notPredicate
  induction formula with
  | compare left comparison right =>
      rw [marksOf_compare]
      exact (cellsOf_agrees wellFormed left).join (cellsOf_agrees wellFormed right)
        fun cell other => cell.comparesAs comparison other
  | nullTest operand negated =>
      rw [marksOf_nullTest]
      exact (cellsOf_agrees wellFormed operand).map fun cell => cell.isMissing != negated
  | both left right leftAgrees rightAgrees =>
      rw [marksOf_both]
      exact leftAgrees.join rightAgrees (· && ·)
  | either left right leftAgrees rightAgrees =>
      rw [marksOf_either]
      exact leftAgrees.join rightAgrees (· || ·)
  | group inner innerAgrees => exact innerAgrees
  | _ => exact bareAgrees _ rfl

theorem map_valueOn (wellFormed : table.WellFormed) {formula : Formula} {cells : List Cell}
    (given : cellsOf table formula = .ok cells) :
    table.rows.map (fun row => formula.valueOn (table.onRow row)) = cells.map .ok :=
  (given ▸ cellsOf_agrees wellFormed formula).map_onRow

theorem map_holdsOn (wellFormed : table.WellFormed) {formula : Formula} {marks : List Bool}
    (given : marksOf table formula = .ok marks) :
    table.rows.map (fun row => formula.holdsOn (table.onRow row)) = marks.map .ok :=
  (given ▸ marksOf_agrees wellFormed formula).map_onRow

theorem evaluate_of_marksOf_ok {formula : Formula} {marks : List Bool}
    (given : marksOf table formula = .ok marks) :
    (formula.evaluate table).mask = marks ∧
      (formula.evaluate table).issues = (formula.mask table).issues := by
  unfold marksOf at given
  simp [evaluate, given]

theorem evaluate_of_marksOf_error {formula : Formula} {issue : Issue}
    (failed : marksOf table formula = .error issue) :
    (formula.evaluate table).mask = List.replicate table.size false ∧
      (formula.evaluate table).issues = (formula.mask table).issues ++ [issue] := by
  unfold marksOf at failed
  simp [evaluate, failed]

end Formula

theorem Agrees.isFatal {α : Type} {rows : List (List Cell)} {onRow : List Cell → Except Issue α}
    {issue : Issue} (agrees : Agrees rows onRow (.error issue)) : issue.isFatal = true := by
  cases agrees with
  | badSum _ _ => rfl
  | everywhere fatal _ _ => exact fatal

end TableSieve
