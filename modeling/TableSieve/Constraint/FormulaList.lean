import TableSieve.Config.Shape
import TableSieve.Constraint.Filtering
import TableSieve.Formula.Evaluation

/-!
Lists of formulas. Each formula filters what the formulas before it have left, so a row stays when
it matches them all. The issues of an evaluation become warnings about the text of its formula.
-/

namespace TableSieve

structure WrittenFormula where
  text : String
  formula : Formula
  deriving DecidableEq

structure FormulaList where
  formulas : List WrittenFormula
  deriving DecidableEq

namespace FormulaList

def readFrom (index : Nat) : List String → Except ConfigError (List WrittenFormula)
  | [] => .ok []
  | text :: rest =>
    match Formula.parse text with
    | .error error => .error (.badFormula index text error)
    | .ok formula => (readFrom (index + 1) rest).map (⟨text, formula⟩ :: ·)

def ofTexts (texts : List String) : Except ConfigError FormulaList := do
  let formulas ← readFrom 0 texts
  if formulas.isEmpty then .error (.badShape .noFormulas) else .ok ⟨formulas⟩

def read (json : Json) : Except ConfigError FormulaList := do
  ofTexts (← (readFormulaTexts json).mapError .badShape)

def fields (list : FormulaList) : List String :=
  sortNames (list.formulas.flatMap fun written => written.formula.fieldList)

def warningOf (text : String) (issue : Issue) : Warning :=
  ⟨issue.code, formulasName, text, issue.message⟩

def applyFormula (written : WrittenFormula) (table : Table) : Filtering :=
  let evaluation := written.formula.evaluate table
  ⟨.ok (table.filter evaluation.mask), evaluation.issues.map (warningOf written.text)⟩

def filter (list : FormulaList) (table : Table) : Filtering :=
  Filtering.steps applyFormula list.formulas table

end FormulaList

end TableSieve
