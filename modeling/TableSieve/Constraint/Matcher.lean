import TableSieve.Calendar.Reading
import TableSieve.Cell
import TableSieve.Config.Shape
import TableSieve.Formula.Printer
import TableSieve.Number.Reading
import TableSieve.Text.Blank

/-!
Matching a cell against a configured value. A text is read as the kind of the cell that it is
compared with, a number matches every notation of it in a text cell, and null, like the word for a
missing value, matches the missing cells and no others.
-/

namespace TableSieve

open TableSieve.Calendar TableSieve.Number TableSieve.Text

inductive Matcher
  | missing
  | equals (scalar : Scalar)
  deriving DecidableEq

/-- Equality of numbers: both zeros are equal, and NaN equals nothing. -/
def sameNumber (left right : Float) : Bool :=
  !isNaN left && !isNaN right && rank left = rank right

def readsAs (text : String) (value : Float) : Bool :=
  match readFloat? (trimChars text.toList) with
  | some read => sameNumber read value
  | none => false

/-- A text equals an integer if it reads as it, or as a float to which the integer rounds. -/
def textMatchesInt (text : String) (value : Int64) : Bool :=
  readInt64? (trimChars text.toList) = some value || readsAs text (ofInt value.toInt)

def textMatchesBool (text : String) (value : Bool) : Bool :=
  (trim text).toLower = if value then "true" else "false"

def textMatchesDate (text : String) (value : Date) : Bool :=
  match readDate (trimChars text.toList) with
  | .ok read => read = value
  | .error _ => false

def textMatchesDateTime (text : String) (value : DateTime) : Bool :=
  let chars := trimChars text.toList
  [Separator.letterT, Separator.blanks].any fun separator =>
    match readDateTime separator chars with
    | .ok read => read = value
    | .error _ => false

def textMatches (text : String) : Cell → Bool
  | .text value => text = value
  | .int value => textMatchesInt text value
  | .float value => readsAs text value
  | .bool value => textMatchesBool text value
  | .date value => textMatchesDate text value
  | .dateTime value => textMatchesDateTime text value
  | .null => false

def numberMatches (number : Float) : Cell → Bool
  | .int value => sameNumber number (ofInt value.toInt)
  | .float value => sameNumber number value
  | .text value => readsAs value number
  | _ => false

def Scalar.matchesCell : Scalar → Cell → Bool
  | .bool expected, .bool value => expected = value
  | .bool _, _ => false
  | .int expected, .int value => expected = value
  | .int expected, cell => numberMatches (ofInt expected.toInt) cell
  | .float expected, cell => numberMatches expected cell
  | .text expected, cell => textMatches expected cell

namespace Matcher

def ofScalar : Option Scalar → Matcher
  | none => .missing
  | some (.text value) => if value = missingWord then .missing else .equals (.text value)
  | some scalar => .equals scalar

def accepts : Matcher → Cell → Bool
  | .missing, cell => cell.isMissing
  | .equals scalar, cell => !cell.isMissing && scalar.matchesCell cell

end Matcher

end TableSieve
