import TableSieve.Formula.Basic
import TableSieve.Number.Layout

/-!
Writing formulas. Operators stand between single spaces and a group between parentheses; a float
keeps its point, so every literal reads back as what it was.
-/

namespace TableSieve

open TableSieve.Number

def missingWord : String := "pd.NA"

def Literal.text : Literal → String
  | .int value => intText value.toInt
  | .float value => Layout.literal.text value
  | .date text => s!"DATE({text})"
  | .missing => missingWord

def nullTestWords (negated : Bool) : String :=
  if negated then "IS NOT" else "IS"

def Formula.text : Formula → String
  | .field name => name
  | .literal value => value.text
  | .sum left right => left.text ++ " + " ++ right.text
  | .compare left comparison right => left.text ++ " " ++ comparison.symbol ++ " " ++ right.text
  | .nullTest operand negated => operand.text ++ " " ++ nullTestWords negated ++ " " ++ missingWord
  | .both left right => left.text ++ " & " ++ right.text
  | .either left right => left.text ++ " | " ++ right.text
  | .group inner => "(" ++ inner.text ++ ")"

end TableSieve
