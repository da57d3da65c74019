import TableSieve.Proofs.RowValues

/-!
Evaluation of formulas, column by column and row by row. A formula is flawed over a table if one of
its nodes is: then the issues say so and no row is marked. Otherwise every row has the mark that it
has by itself, and there is one issue for every node that compares unlike cells.
-/

namespace TableSieve

open TableSieve.Calendar

namespace Formula

/-- What is wrong with a formula over a table by its outermost part. -/
inductive Flaw (table : Table) : Formula → Prop
  | unknownField {name : String} (absent : table.hasColumn name = false) : Flaw table (.field name)
  | impossibleDate {text : String}
      (impossible : ∀ day, readDate (Text.trimChars text.toList) ≠ .ok day) :
      Flaw table (.literal (.date text))
  | predicateOperand {formula operand : Formula} (member : operand ∈ formula.operands)
      (predicate : operand.isPredicate = true) : Flaw table formula
  | failedSum {left right : Formula} {row : List Cell} {leftCell rightCell : Cell}
      (member : row ∈ table.rows) (leftValue : left.valueOn (table.onRow row) = .ok leftCell)
      (rightValue : right.valueOn (table.onRow row) = .ok rightCell)
      (fails : leftCell.add? rightCell = none) : Flaw table (.sum left right)

def Flawed (table : Table) (formula : Formula) : Prop :=
  ∃ node ∈ formula.nodes, Flaw table node

def clashesIn (table : Table) : Formula → Bool
  | .compare left _ right =>
    table.rows.any fun row =>
      match left.valueOn (table.onRow row), right.valueOn (table.onRow row) with
      | .ok leftCell, .ok rightCell => leftCell.clashes rightCell
      | _, _ => false
  | _ => false

end Formula

namespace Progress

variable {α β : Type}

theorem issues_andThen_of_ok {first : Progress α} {value : α} (given : first.result = .ok value)
    (next : α → Progress β) :
    (first.andThen next).issues = first.issues ++ (next value).issues := by
  simp [andThen, given]

theorem mem_issues_andThen {first : Progress α} {next : α → Progress β} {issue : Issue}
    (member : issue ∈ (first.andThen next).issues) :
    issue ∈ first.issues ∨ ∃ value, issue ∈ (next value).issues := by
  unfold andThen at member
  split at member
  · exact Or.inl member
  · rename_i value _
    exact (List.mem_append.mp member).imp_right fun later => ⟨value, later⟩

end Progress

namespace Formula

variable {table : Table}

/-! The results over a table are errors exactly when a node is flawed. -/

theorem Flawed.mono {part whole : Formula} (contained : part.nodes ⊆ whole.nodes)
    (flawed : Flawed table part) : Flawed table whole := by
  obtain ⟨node, inside, flaw⟩ := flawed
  exact ⟨node, contained inside, flaw⟩

theorem Flawed.of_operand {formula operand : Formula} (member : operand ∈ formula.operands)
    (wrong : operand.isPredicate = true ∨ Flawed table operand) : Flawed table formula := by
  rcases wrong with predicate | flawed
  · exact ⟨formula, self_mem_nodes formula, .predicateOperand member predicate⟩
  · exact flawed.mono (nodes_subset_of_operand member)

theorem cellsOf_sum_eq_ok_iff {left right : Formula} {sums : List Cell} :
    cellsOf table (.sum left right) = .ok sums ↔
      ∃ lefts, cellsOf table left = .ok lefts ∧ ∃ rights, cellsOf table right = .ok rights ∧
        ((lefts.zip rights).mapM fun pair => pair.1.add? pair.2) = some sums := by
  simp only [cellsOf_sum, bind_eq_ok_iff]
  refine exists_congr fun lefts => and_congr_right fun _ => ?_
  refine exists_congr fun rights => and_congr_right fun _ => ?_
  split <;> simp_all

theorem cellsOf_sum_eq_error {left right : Formula} {issue : Issue}
    (failed : cellsOf table (.sum left right) = .error issue) :
    cellsOf table left = .error issue ∨ cellsOf table right = .error issue ∨
      ∃ lefts rights, cellsOf table left = .ok lefts ∧ cellsOf table right = .ok rights ∧
        ((lefts.zip rights).mapM fun pair => pair.1.add? pair.2) = none := by
  simp only [cellsOf_sum, bind_eq_error_iff] at failed
  rcases failed with leftFails | ⟨lefts, leftOk, rightFails | ⟨rights, rightOk, sumFails⟩⟩
  · exact Or.inl leftFails
  · exact Or.inr (Or.inl rightFails)
  · refine Or.inr (Or.inr ⟨lefts, rights, leftOk, rightOk, ?_⟩)
    split at sumFails <;> simp_all

theorem mapM_add?_eq_none_iff (wellFormed : table.WellFormed) {left right : Formula}
    {lefts rights : List Cell} (leftOk : cellsOf table left = .ok lefts)
    (rightOk : cellsOf table right = .ok rights) :
    ((lefts.zip rights).mapM fun pair => pair.1.add? pair.2) = none ↔
      ∃ row ∈ table.rows, ∃ leftCell rightCell,
        left.valueOn (table.onRow row) = .ok leftCell ∧
          right.valueOn (table.onRow row) = .ok rightCell ∧ leftCell.add? rightCell = none := by
  have pairs : ∀ leftCell rightCell, (leftCell, rightCell) ∈ lefts.zip rights ↔
      ∃ row ∈ table.rows, left.valueOn (table.onRow row) = .ok leftCell ∧
        right.valueOn (table.onRow row) = .ok rightCell :=
    fun _ _ => mem_zip_iff (map_valueOn wellFormed leftOk) (map_valueOn wellFormed rightOk)
  rw [mapM_eq_none_iff]
  constructor
  · rintro ⟨⟨leftCell, rightCell⟩, member, fails⟩
    obtain ⟨row, present, leftValue, rightValue⟩ := (pairs _ _).mp member
    exact ⟨row, present, leftCell, rightCell, leftValue, rightValue, fails⟩
  · rintro ⟨row, present, leftCell, rightCell, leftValue, rightValue, fails⟩
    exact ⟨(leftCell, rightCell), (pairs _ _).mpr ⟨row, present, leftValue, rightValue⟩, fails⟩

theorem flawed_of_cellsOf_error (wellFormed : table.WellFormed) {formula : Formula} {issue : Issue}
    (failed : cellsOf table formula = .error issue) :
    formula.isPredicate = true ∨ Flawed table formula := by
  induction formula generalizing issue with
  | field name =>
      rw [cellsOf_field] at failed
      cases found : table.column? name with
      | none =>
          exact Or.inr ⟨_, self_mem_nodes _, .unknownField (by simp [Table.hasColumn, found])⟩
      | some column => simp [found] at failed
  | literal value =>
      rw [cellsOf_literal] at failed
      cases value with
      | date text =>
          refine Or.inr ⟨_, self_mem_nodes _, .impossibleDate ?_⟩
          intro day read
          simp [Literal.cell, read, Except.map] at failed
      | _ => simp [Literal.cell, Except.map] at failed
  | sum left right leftFlawed rightFlawed =>
      refine Or.inr ?_
      rcases cellsOf_sum_eq_error failed with leftFails | rightFails | fails
      · exact .of_operand (by simp [operands]) (leftFlawed leftFails)
      · exact .of_operand (by simp [operands]) (rightFlawed rightFails)
      · obtain ⟨lefts, rights, leftOk, rightOk, stops⟩ := fails
        obtain ⟨row, present, leftCell, rightCell, leftValue, rightValue, cannot⟩ :=
          (mapM_add?_eq_none_iff wellFormed leftOk rightOk).mp stops
        exact ⟨_, self_mem_nodes _, .failedSum present leftValue rightValue cannot⟩
  | _ => exact Or.inl rfl

theorem value_of_cellsOf_ok {formula : Formula} {cells : List Cell}
    (given : cellsOf table formula = .ok cells) : formula.isPredicate = false := by
  rw [← Bool.not_eq_true]
  intro predicate
  rw [cellsOf_predicate predicate] at given
  simp at given

theorem sound_of_cellsOf_ok (wellFormed : table.WellFormed) {formula : Formula}
    {cells : List Cell} (given : cellsOf table formula = .ok cells) :
    ∀ node ∈ formula.nodes, node.isPredicate = false ∧ ¬Flaw table node := by
  induction formula generalizing cells with
  | field name =>
      intro node member
      obtain rfl := List.mem_singleton.mp member
      refine ⟨rfl, fun flaw => ?_⟩
      rw [cellsOf_field] at given
      cases flaw with
      | unknownField absent =>
          have unknown : table.column? name = none := by simpa [Table.hasColumn] using absent
          simp [unknown] at given
      | predicateOperand inside _ => simp [operands] at inside
  | literal value =>
      intro node member
      obtain rfl := List.mem_singleton.mp member
      refine ⟨rfl, fun flaw => ?_⟩
      rw [cellsOf_literal] at given
      cases flaw with
      | impossibleDate impossible =>
          simp only [Literal.cell] at given
          split at given
          · rename_i day read
            exact impossible day read
          · simp [Except.map] at given
      | predicateOperand inside _ => simp [operands] at inside
  | sum left right leftSound rightSound =>
      obtain ⟨lefts, leftOk, rights, rightOk, added⟩ := cellsOf_sum_eq_ok_iff.mp given
      have leftNodes := leftSound leftOk
      have rightNodes := rightSound rightOk
      intro node member
      simp only [nodes, List.mem_cons, List.mem_append] at member
      rcases member with rfl | inLeft | inRight
      · refine ⟨rfl, fun flaw => ?_⟩
        cases flaw with
        | predicateOperand inside predicate =>
            have values : ∀ operand ∈ (Formula.sum left right).operands,
                operand.isPredicate = false := by
              simp [operands, value_of_cellsOf_ok leftOk, value_of_cellsOf_ok rightOk]
            simp [values _ inside] at predicate
        | failedSum present leftValue rightValue cannot =>
            have stops := (mapM_add?_eq_none_iff wellFormed leftOk rightOk).mpr
              ⟨_, present, _, _, leftValue, rightValue, cannot⟩
            simp [stops] at added
      · exact leftNodes node inLeft
      · exact rightNodes node inRight
  | _ =>
      rw [cellsOf_predicate rfl] at given
      simp at given

theorem not_flaw_of_predicate {formula : Formula} (predicate : formula.isPredicate = true)
    (values : ∀ operand ∈ formula.operands, operand.isPredicate = false) :
    ¬Flaw table formula := by
  intro flaw
  cases flaw with
  | predicateOperand inside wrong => simp [values _ inside] at wrong
  | _ => simp [isPredicate] at predicate

theorem flawed_of_marksOf_error (wellFormed : table.WellFormed) {formula : Formula} {issue : Issue}
    (failed : marksOf table formula = .error issue) : Flawed table formula := by
  have bareFlawed : ∀ bare : Formula, bare.isPredicate = false →
      marksOf table bare = .error issue → Flawed table bare := by
    intro bare notPredicate bareFails
    rw [marksOf_bare notPredicate, bind_ok_eq_error_iff] at bareFails
    exact (flawed_of_cellsOf_error wellFormed bareFails).resolve_left (by simp [notPredicate])
  induction formula with
  | compare left comparison right =>
      rw [marksOf_compare, bind_bind_ok_eq_error_iff] at failed
      rcases failed with leftFails | ⟨_, _, rightFails⟩
      · exact .of_operand (by simp [operands]) (flawed_of_cellsOf_error wellFormed leftFails)
      · exact .of_operand (by simp [operands]) (flawed_of_cellsOf_error wellFormed rightFails)
  | nullTest operand negated =>
      rw [marksOf_nullTest, bind_ok_eq_error_iff] at failed
      exact .of_operand (by simp [operands]) (flawed_of_cellsOf_error wellFormed failed)
  | both left right leftFlawed rightFlawed | either left right leftFlawed rightFlawed =>
      simp only [marksOf_both, marksOf_either, bind_bind_ok_eq_error_iff] at failed
      rcases failed with leftFails | ⟨_, _, rightFails⟩
      · exact (leftFlawed leftFails).mono (by simp [nodes])
      · exact (rightFlawed rightFails).mono (by simp [nodes])
  | group inner innerFlawed => exact (innerFlawed failed).mono (by simp [nodes])
  | _ => exact bareFlawed _ rfl failed

theorem not_flawed_of_marksOf_ok (wellFormed : table.WellFormed) {formula : Formula}
    {marks : List Bool} (given : marksOf table formula = .ok marks) : ¬Flawed table formula := by
  rintro ⟨node, member, flaw⟩
  induction formula generalizing marks with
  | compare left comparison right =>
      simp only [marksOf_compare, bind_eq_ok_iff] at given
      obtain ⟨lefts, leftOk, rights, rightOk, _⟩ := given
      have leftNodes := sound_of_cellsOf_ok wellFormed leftOk
      have rightNodes := sound_of_cellsOf_ok wellFormed rightOk
      simp only [nodes, List.mem_cons, List.mem_append] at member
      rcases member with rfl | inLeft | inRight
      · have values : ∀ operand ∈ (Formula.compare left comparison right).operands,
            operand.isPredicate = false := by
          simp [operands, value_of_cellsOf_ok leftOk, value_of_cellsOf_ok rightOk]
        exact not_flaw_of_predicate rfl values flaw
      · exact (leftNodes node inLeft).2 flaw
      · exact (rightNodes node inRight).2 flaw
  | nullTest operand negated =>
      simp only [marksOf_nullTest, bind_eq_ok_iff] at given
      obtain ⟨cells, cellsOk, _⟩ := given
      have operandNodes := sound_of_cellsOf_ok wellFormed cellsOk
      simp only [nodes, List.mem_cons] at member
      rcases member with rfl | inside
      · have values : ∀ other ∈ (Formula.nullTest operand negated).operands,
            other.isPredicate = false := by
          simp [operands, value_of_cellsOf_ok cellsOk]
        exact not_flaw_of_predicate rfl values flaw
      · exact (operandNodes node inside).2 flaw
  | both left right leftSound rightSound | either left right leftSound rightSound =>
      simp only [marksOf_both, marksOf_either, bind_eq_ok_iff] at given
      obtain ⟨lefts, leftOk, rights, rightOk, _⟩ := given
      simp only [nodes, List.mem_cons, List.mem_append] at member
      rcases member with rfl | inLeft | inRight
      · exact not_flaw_of_predicate rfl (by simp [operands]) flaw
      · exact leftSound leftOk inLeft
      · exact rightSound rightOk inRight
  | group inner innerSound =>
      simp only [nodes, List.mem_cons] at member
      rcases member with rfl | inside
      · exact not_flaw_of_predicate rfl (by simp [operands]) flaw
      · exact innerSound given inside
  | _ =>
      rw [marksOf_bare rfl] at given
      obtain ⟨cells, cellsOk, _⟩ := bind_eq_ok_iff.mp given
      exact (sound_of_cellsOf_ok wellFormed cellsOk node member).2 flaw

/-! Issues of an evaluation that is not over: one for every node that compares unlike cells. -/

theorem issues_resolve (formula : Formula) : (formula.resolve table).issues = [] := by
  rw [List.eq_nil_iff_forall_not_mem]
  intro issue member
  induction formula with
  | field name =>
      simp only [resolve] at member
      split at member <;> simp [Progress.stop] at member
  | literal value =>
      simp only [resolve] at member
      split at member <;> simp [Progress.done, Progress.stop] at member
  | sum left right leftNone rightNone =>
      rcases Progress.mem_issues_andThen member with inLeft | ⟨lefts, later⟩
      · exact leftNone inLeft
      · rcases Progress.mem_issues_andThen later with inRight | ⟨rights, last⟩
        · exact rightNone inRight
        · simp only at last
          split at last <;> simp [Progress.done, Progress.stop] at last
  | _ => simp [resolve, Progress.stop] at member

theorem isFatal_of_mem_issues {formula : Formula} {issue : Issue}
    (member : issue ∈ (formula.mask table).issues) : issue.isFatal = false := by
  have none : ∀ operand : Formula, issue ∉ (operand.resolve table).issues := by
    simp [issues_resolve]
  induction formula with
  | compare left comparison right =>
      rcases Progress.mem_issues_andThen member with inLeft | ⟨lefts, later⟩
      · exact absurd inLeft (none left)
      · rcases Progress.mem_issues_andThen later with inRight | ⟨rights, last⟩
        · exact absurd inRight (none right)
        · simp only at last
          split at last
          · rw [List.mem_singleton.mp last]
            rfl
          · simp at last
  | both left right leftCase rightCase | either left right leftCase rightCase =>
      rcases Progress.mem_issues_andThen member with inLeft | ⟨lefts, later⟩
      · exact leftCase inLeft
      · rcases Progress.mem_issues_andThen later with inRight | ⟨rights, last⟩
        · exact rightCase inRight
        · simp [Progress.done] at last
  | group inner innerCase => exact innerCase member
  | _ =>
      rcases Progress.mem_issues_andThen member with inside | ⟨cells, later⟩
      · exact absurd inside (none _)
      · simp [Progress.done] at later

theorem clashesIn_of_value {formula : Formula} (value : formula.isPredicate = false) :
    formula.clashesIn table = false := by
  cases formula with
  | field _ | literal _ | sum _ _ => rfl
  | _ => simp [isPredicate] at value

theorem filter_clashesIn_of_cellsOf_ok (wellFormed : table.WellFormed) {formula : Formula}
    {cells : List Cell} (given : cellsOf table formula = .ok cells) :
    formula.nodes.filter (clashesIn table) = [] := by
  rw [List.filter_eq_nil_iff]
  intro node member
  simp [clashesIn_of_value (sound_of_cellsOf_ok wellFormed given node member).1]

theorem clashesIn_compare (wellFormed : table.WellFormed) {left right : Formula}
    {lefts rights : List Cell} (leftOk : cellsOf table left = .ok lefts)
    (rightOk : cellsOf table right = .ok rights) (comparison : Comparison) :
    (Formula.compare left comparison right).clashesIn table =
      (lefts.zip rights).any fun pair => pair.1.isIncomparable pair.2 := by
  have pairs := map_pairs (map_valueOn wellFormed leftOk) (map_valueOn wellFormed rightOk)
    fun leftValue rightValue =>
      match leftValue, rightValue with
      | .ok leftCell, .ok rightCell => leftCell.clashes rightCell
      | _, _ => false
  have marked := congrArg (List.any · id) pairs
  simpa [List.any_map, Function.comp_def, Cell.isIncomparable_eq_clashes, clashesIn] using marked

theorem result_of_cellsOf_ok {formula : Formula} {cells : List Cell}
    (given : cellsOf table formula = .ok cells) :
    ∃ operand, (formula.resolve table).result = .ok operand ∧
      operand.values table.size = cells := by
  unfold cellsOf at given
  cases found : (formula.resolve table).result with
  | error issue => simp [found, Except.map] at given
  | ok operand => exact ⟨operand, rfl, by simpa [found, Except.map] using given⟩

theorem issues_of_marksOf_ok (wellFormed : table.WellFormed) {formula : Formula}
    {marks : List Bool} (given : marksOf table formula = .ok marks) :
    (formula.mask table).issues = (formula.nodes.filter (clashesIn table)).map .incomparable := by
  induction formula generalizing marks with
  | compare left comparison right =>
      simp only [marksOf_compare, bind_eq_ok_iff] at given
      obtain ⟨lefts, leftOk, rights, rightOk, _⟩ := given
      obtain ⟨leftOperand, leftResult, leftCells⟩ := result_of_cellsOf_ok leftOk
      obtain ⟨rightOperand, rightResult, rightCells⟩ := result_of_cellsOf_ok rightOk
      have own := clashesIn_compare wellFormed leftOk rightOk comparison
      simp only [mask, Progress.issues_andThen_of_ok leftResult,
        Progress.issues_andThen_of_ok rightResult, issues_resolve, List.nil_append, nodes,
        List.filter_cons, List.filter_append, filter_clashesIn_of_cellsOf_ok wellFormed leftOk,
        filter_clashesIn_of_cellsOf_ok wellFormed rightOk, own, leftCells, rightCells]
      split <;> simp
  | nullTest operand negated =>
      simp only [marksOf_nullTest, bind_eq_ok_iff] at given
      obtain ⟨cells, cellsOk, _⟩ := given
      obtain ⟨result, given, _⟩ := result_of_cellsOf_ok cellsOk
      simp [mask, Progress.issues_andThen_of_ok given, issues_resolve, Progress.done, nodes,
        clashesIn, filter_clashesIn_of_cellsOf_ok wellFormed cellsOk]
  | both left right leftIssues rightIssues | either left right leftIssues rightIssues =>
      simp only [marksOf_both, marksOf_either, bind_eq_ok_iff] at given
      obtain ⟨lefts, leftOk, rights, rightOk, _⟩ := given
      simp [mask, Progress.issues_andThen_of_ok leftOk, Progress.issues_andThen_of_ok rightOk,
        Progress.done, nodes, clashesIn, leftIssues leftOk, rightIssues rightOk]
  | group inner innerIssues =>
      simp [mask, nodes, clashesIn, innerIssues given]
  | _ =>
      rw [marksOf_bare rfl] at given
      obtain ⟨cells, cellsOk, _⟩ := bind_eq_ok_iff.mp given
      obtain ⟨result, resolved, _⟩ := result_of_cellsOf_ok cellsOk
      rw [filter_clashesIn_of_cellsOf_ok wellFormed cellsOk]
      simp only [mask, Progress.issues_andThen_of_ok resolved, issues_resolve]
      rfl

end Formula

namespace Issue

def fatalCodes : List String :=
  ["unknown_field", "unparseable_literal", "invalid_operand", "invalid_sum"]

theorem isFatal_iff {issue : Issue} : issue.isFatal = true ↔ issue.code ∈ fatalCodes := by
  cases issue <;> simp [isFatal, code, fatalCodes]

end Issue

namespace Formula

variable {table : Table}

/-- Evaluating column by column agrees with evaluating row by row. -/
theorem evaluate_by_rows (wellFormed : table.WellFormed) (formula : Formula) :
    ((∃ issue ∈ (formula.evaluate table).issues, issue.code ∈ Issue.fatalCodes) ↔
        Flawed table formula) ∧
      (Flawed table formula →
        (formula.evaluate table).mask = List.replicate table.size false) ∧
      (¬Flawed table formula →
        table.rows.map (fun row => formula.holdsOn (table.onRow row)) =
            (formula.evaluate table).mask.map .ok ∧
          (formula.evaluate table).issues.countP (·.code == "incomparable_types") =
            formula.nodes.countP (clashesIn table)) := by
  simp only [← Issue.isFatal_iff]
  cases result : marksOf table formula with
  | error issue =>
      have flawed := flawed_of_marksOf_error wellFormed result
      obtain ⟨mask, issues⟩ := evaluate_of_marksOf_error result
      have fatal : issue.isFatal = true := (result ▸ marksOf_agrees wellFormed formula).isFatal
      refine ⟨⟨fun _ => flawed, fun _ => ⟨issue, ?_, fatal⟩⟩, fun _ => mask, ?_⟩
      · rw [issues]
        exact List.mem_append_right _ (List.mem_singleton.mpr rfl)
      · exact fun sound => absurd flawed sound
  | ok marks =>
      have sound := not_flawed_of_marksOf_ok wellFormed result
      obtain ⟨mask, issues⟩ := evaluate_of_marksOf_ok result
      have never : ∀ {goal : Prop}, Flawed table formula → goal :=
        fun flawed => absurd flawed sound
      refine ⟨⟨?_, never⟩, never, fun _ => ?_⟩
      · rintro ⟨issue, member, fatal⟩
        rw [issues] at member
        simp [isFatal_of_mem_issues member] at fatal
      · refine ⟨by rw [mask, map_holdsOn wellFormed result], ?_⟩
        rw [issues, issues_of_marksOf_ok wellFormed result, List.countP_map,
          List.countP_eq_length_filter (p := clashesIn table)]
        exact List.countP_eq_length.mpr fun _ _ => rfl

theorem evaluate_by_rows_mixed :
    let table : Table :=
      ⟨[⟨"age", .int, [.int 30, .null, .int 17]⟩, ⟨"name", .text, [.text "a", .text "b", .null]⟩,
        ⟨"active", .bool, [.bool true, .bool false, .null]⟩,
        ⟨"joined", .date, [.date ⟨2024, 2, 26, by decide⟩, .null, .date ⟨2024, 2, 24, by decide⟩]⟩],
        3⟩
    let formula : Formula := .either
      (.both (.field "active") (.compare (.field "age") .notEqual (.field "name")))
      (.compare (.sum (.field "joined") (.literal (.int 5))) .less
        (.literal (.date "2024-03-01")))
    table.WellFormed ∧ ¬Flawed table formula ∧
      table.rows.map (fun row => formula.holdsOn (table.onRow row)) =
          [true, false, true].map .ok ∧
        formula.nodes.countP (clashesIn table) = 1 := by
  intro table formula
  have wellFormed : table.WellFormed := by decide +kernel
  obtain ⟨fatal, _, sound⟩ := evaluate_by_rows wellFormed formula
  have notFlawed : ¬Flawed table formula := by
    rw [← fatal]
    decide +kernel
  obtain ⟨marks, clashing⟩ := sound notFlawed
  refine ⟨wellFormed, notFlawed, ?_, ?_⟩
  · have mask : (formula.evaluate table).mask = [true, false, true] := by decide +kernel
    rw [marks, mask]
  · rw [← clashing]
    decide +kernel

end Formula

end TableSieve
