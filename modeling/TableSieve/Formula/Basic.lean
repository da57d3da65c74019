import TableSieve.Names

/-!
Formulas over the columns of a table: comparisons and null tests of operands, joined by `&` and `|`.
An operand is a field, a literal or a sum. The type is wider than the grammar: any formula may stand
anywhere, and evaluation says what is wrong with one that cannot.
-/

namespace TableSieve

inductive Comparison
  | greater
  | greaterEqual
  | equal
  | notEqual
  | less
  | lessEqual
  deriving DecidableEq

namespace Comparison

def symbol : Comparison → String
  | .greater => ">"
  | .greaterEqual => ">="
  | .equal => "=="
  | .notEqual => "!="
  | .less => "<"
  | .lessEqual => "<="

def all : List Comparison :=
  [.greater, .greaterEqual, .equal, .notEqual, .less, .lessEqual]

def ofSymbol? (symbol : String) : Option Comparison :=
  all.find? (·.symbol == symbol)

def holds (comparison : Comparison) (order : Ordering) : Bool :=
  match comparison with
  | .greater => order == .gt
  | .greaterEqual => order != .lt
  | .equal => order == .eq
  | .notEqual => order != .eq
  | .less => order == .lt
  | .lessEqual => order != .gt

end Comparison

/-- A date keeps its text, so that an impossible one is an issue of evaluation, not of grammar. -/
inductive Literal
  | int (value : Int64)
  | float (value : Float)
  | date (text : String)
  | missing
  deriving DecidableEq

inductive Formula
  | field (name : String)
  | literal (value : Literal)
  | sum (left right : Formula)
  | compare (left : Formula) (comparison : Comparison) (right : Formula)
  | nullTest (operand : Formula) (negated : Bool)
  | both (left right : Formula)
  | either (left right : Formula)
  | group (inner : Formula)
  deriving DecidableEq

namespace Formula

def fieldList : Formula → List String
  | .field name => [name]
  | .literal _ => []
  | .sum left right => left.fieldList ++ right.fieldList
  | .compare left _ right => left.fieldList ++ right.fieldList
  | .nullTest operand _ => operand.fieldList
  | .both left right => left.fieldList ++ right.fieldList
  | .either left right => left.fieldList ++ right.fieldList
  | .group inner => inner.fieldList

def fields (formula : Formula) : List String :=
  sortNames formula.fieldList

end Formula

end TableSieve
