import TableSieve.Formula.Printer
import TableSieve.Calendar.Reading
import TableSieve.Table.Basic

/-!
Evaluating a formula over a table, column by column, to a mask with one mark per row. A comparison
with a missing side is false, and sides of different kinds are only ever unequal, which is noted
once for each comparison. An unknown field, an impossible date, a predicate used as a value or a
sum that fails on some row ends the evaluation: the mask is then false on every row.
-/

namespace TableSieve

open TableSieve.Calendar TableSieve.Number

inductive Issue
  | unknownField (name : String)
  | badDate (text : String) (error : DateError)
  | badSum (formula : Formula)
  | notAValue (formula : Formula)
  | incomparable (formula : Formula)
  deriving DecidableEq

namespace Issue

def code : Issue → String
  | .unknownField _ => "unknown_field"
  | .badDate _ _ => "unparseable_literal"
  | .badSum _ => "invalid_sum"
  | .notAValue _ => "invalid_operand"
  | .incomparable _ => "incomparable_types"

def message : Issue → String
  | .unknownField name => s!"field '{name}' not found"
  | .badDate text error => s!"DATE({text}) is not a valid date: {error.message}"
  | .badSum formula => s!"'{formula.text}' adds values that cannot be summed"
  | .notAValue formula => s!"'{formula.text}' is a predicate, not a value"
  | .incomparable formula => s!"'{formula.text}' compares values of different kinds"

def isFatal : Issue → Bool
  | .incomparable _ => false
  | _ => true

end Issue

namespace Cell

def addDays? (cell : Cell) (days : Int) : Option Cell :=
  match cell with
  | .date value => (value.addDays? days).map .date
  | .dateTime value => (value.addDays? days).map .dateTime
  | _ => none

def shift? (cell offset : Cell) : Option Cell :=
  match offset with
  | .int _ | .float _ => offset.whole?.bind fun days => cell.addDays? days.toInt
  | _ => none

/-- The sum of two cells: missing if either is, exact for integers, rounded for floats, and a number
of days added to a date or date-time on either side. -/
def add? (left right : Cell) : Option Cell :=
  if left.isMissing || right.isMissing then some .null
  else match left, right with
    | .int a, .int b => (int64? (a.toInt + b.toInt)).map .int
    | .int a, .float b => some (.float (ofInt a.toInt + b))
    | .float a, .int b => some (.float (a + ofInt b.toInt))
    | .float a, .float b => some (.float (a + b))
    | .date _, _ | .dateTime _, _ => left.shift? right
    | _, .date _ | _, .dateTime _ => right.shift? left
    | _, _ => none

end Cell

inductive Operand
  | cells (values : List Cell)
  | constant (value : Cell)

def Operand.values (operand : Operand) (size : Nat) : List Cell :=
  match operand with
  | .cells values => values
  | .constant value => List.replicate size value

structure Progress (α : Type) where
  result : Except Issue α
  touched : List String
  issues : List Issue

namespace Progress

def done {α : Type} (value : α) : Progress α :=
  ⟨.ok value, [], []⟩

def stop {α : Type} (issue : Issue) : Progress α :=
  ⟨.error issue, [], []⟩

def andThen {α β : Type} (first : Progress α) (next : α → Progress β) : Progress β :=
  match first.result with
  | .error issue => ⟨.error issue, first.touched, first.issues⟩
  | .ok value =>
    let second := next value
    ⟨second.result, first.touched ++ second.touched, first.issues ++ second.issues⟩

end Progress

def Literal.cell : Literal → Except Issue Cell
  | .int value => .ok (.int value)
  | .float value => .ok (.float value)
  | .missing => .ok .null
  | .date text =>
    match readDate (Text.trimChars text.toList) with
    | .ok day => .ok (.date day)
    | .error error => .error (.badDate text error)

def Comparison.passes (comparison : Comparison) (left right : Cell) : Bool :=
  if left.isMissing || right.isMissing then false
  else match left.compare right with
    | some order => comparison.holds order
    | none => comparison == .notEqual

def Cell.isIncomparable (left right : Cell) : Bool :=
  !left.isMissing && !right.isMissing && (left.compare right).isNone

namespace Formula

def resolve (table : Table) : Formula → Progress Operand
  | .field name =>
    match table.column? name with
    | some column => ⟨.ok (.cells column.cells), [name], []⟩
    | none => .stop (.unknownField name)
  | .literal value =>
    match value.cell with
    | .ok cell => .done (.constant cell)
    | .error issue => .stop issue
  | .sum left right =>
    (left.resolve table).andThen fun lefts =>
      (right.resolve table).andThen fun rights =>
        let pairs := (lefts.values table.size).zip (rights.values table.size)
        match pairs.mapM fun pair => pair.1.add? pair.2 with
        | some sums => .done (.cells sums)
        | none => .stop (.badSum (.sum left right))
  | other => .stop (.notAValue other)

def mask (table : Table) : Formula → Progress (List Bool)
  | .compare left comparison right =>
    (left.resolve table).andThen fun lefts =>
      (right.resolve table).andThen fun rights =>
        let pairs := (lefts.values table.size).zip (rights.values table.size)
        let marks := pairs.map fun pair => comparison.passes pair.1 pair.2
        let issues :=
          if pairs.any fun pair => pair.1.isIncomparable pair.2 then
            [.incomparable (.compare left comparison right)]
          else []
        ⟨.ok marks, [], issues⟩
  | .nullTest operand negated =>
    (operand.resolve table).andThen fun cells =>
      .done ((cells.values table.size).map fun cell => cell.isMissing != negated)
  | .both left right =>
    (left.mask table).andThen fun lefts =>
      (right.mask table).andThen fun rights => .done (List.zipWith (· && ·) lefts rights)
  | .either left right =>
    (left.mask table).andThen fun lefts =>
      (right.mask table).andThen fun rights => .done (List.zipWith (· || ·) lefts rights)
  | .group inner => inner.mask table
  | bare =>
    (bare.resolve table).andThen fun cells =>
      .done ((cells.values table.size).map Cell.isTruthy)

structure Evaluation where
  mask : List Bool
  touched : List String
  issues : List Issue

def Evaluation.matched (evaluation : Evaluation) : Nat :=
  evaluation.mask.count true

def evaluate (formula : Formula) (table : Table) : Evaluation :=
  let progress := formula.mask table
  let touched := sortNames progress.touched
  match progress.result with
  | .ok mask => ⟨mask, touched, progress.issues⟩
  | .error issue => ⟨List.replicate table.size false, touched, progress.issues ++ [issue]⟩

end Formula

end TableSieve
