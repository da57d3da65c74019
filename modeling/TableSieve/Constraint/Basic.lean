import TableSieve.Constraint.Combinations
import TableSieve.Constraint.FormulaList
import TableSieve.Constraint.NullGroups

/-!
Constraints: what narrows a table to the rows that satisfy it. A constraint checks first that the
table has every field that it reads or writes, and reports the first missing one in the order of
names.
-/

namespace TableSieve

inductive ConstraintKind
  | nullGroups
  | formulas
  | combinations
  deriving DecidableEq

inductive Constraint
  | nullGroups (groups : NullGroups)
  | formulas (list : FormulaList)
  | combinations (rules : Combinations)
  deriving DecidableEq

namespace ConstraintKind

/-- The kinds in the order in which they are applied. -/
def all : List ConstraintKind :=
  [.nullGroups, .formulas, .combinations]

def name : ConstraintKind → String
  | .nullGroups => nullGroupsName
  | .formulas => formulasName
  | .combinations => combinationsName

def build : ConstraintKind → Json → Except ConfigError Constraint
  | .nullGroups, json => (NullGroups.read json).map .nullGroups
  | .formulas, json => (FormulaList.read json).map .formulas
  | .combinations, json => (Combinations.read json).map .combinations

end ConstraintKind

namespace Constraint

def kind : Constraint → ConstraintKind
  | .nullGroups _ => .nullGroups
  | .formulas _ => .formulas
  | .combinations _ => .combinations

def fields : Constraint → List String
  | .nullGroups groups => groups.fields
  | .formulas list => list.fields
  | .combinations rules => rules.fields

def validate (constraint : Constraint) (table : Table) : Except ConfigError Unit :=
  table.checkFields constraint.kind.name constraint.fields

def filter : Constraint → Table → Filtering
  | .nullGroups groups, table => groups.filter table
  | .formulas list, table => list.filter table
  | .combinations rules, table => rules.filter table

def apply (constraint : Constraint) (table : Table) : Filtering :=
  match constraint.validate table with
  | .error error => .stop error
  | .ok () => constraint.filter table

end Constraint

end TableSieve
