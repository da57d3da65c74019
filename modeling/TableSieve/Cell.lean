import TableSieve.Calendar.DateTime
import TableSieve.Number.Layout

/-!
Cells and their types. A missing cell is a null or a floating-point NaN: it has no type, compares
with nothing, and fits every column. Present cells compare when both are numbers or truth values,
both are points in time, or both are texts.
-/

namespace TableSieve

open TableSieve.Calendar TableSieve.Number

inductive CellType
  | bool
  | int
  | float
  | text
  | date
  | dateTime
  deriving DecidableEq, Repr

inductive Cell
  | null
  | bool (value : Bool)
  | int (value : Int64)
  | float (value : Float)
  | text (value : String)
  | date (value : Date)
  | dateTime (value : DateTime)
  deriving DecidableEq

namespace CellType

def name : CellType → String
  | .bool => "bool"
  | .int => "int"
  | .float => "float"
  | .text => "text"
  | .date => "date"
  | .dateTime => "datetime"

def isNumeric : CellType → Bool
  | .int | .float => true
  | _ => false

def isTemporal : CellType → Bool
  | .date | .dateTime => true
  | _ => false

def canCastTo (source target : CellType) : Bool :=
  source = target || (source = .int && target = .float)

end CellType

namespace Cell

def isMissing : Cell → Bool
  | .null => true
  | .float value => isNaN value
  | _ => false

def type? : Cell → Option CellType
  | .null => none
  | .bool _ => some .bool
  | .int _ => some .int
  | .float value => if isNaN value then none else some .float
  | .text _ => some .text
  | .date _ => some .date
  | .dateTime _ => some .dateTime

def number? : Cell → Option Float
  | .int value => some (ofInt value.toInt)
  | .float value => if isNaN value then none else some value
  | .bool value => some (if value then 1 else 0)
  | _ => none

/-- The whole number in a cell; floats beyond 64 bits give the nearest one within. -/
def whole? : Cell → Option Int64
  | .int value => some value
  | .float value => (wholeValue? value).map clampInt64
  | _ => none

def text? : Cell → Option String
  | .text value => some value
  | _ => none

def moment? : Cell → Option DateTime
  | .date value => some value.atMidnight
  | .dateTime value => some value
  | _ => none

def isTruthy : Cell → Bool
  | .null => false
  | .bool value => value
  | .int value => value != 0
  | .float value => !isNaN value && rank value != 0
  | .text _ | .date _ | .dateTime _ => true

def compareNumbers (left right : Cell) : Option Ordering :=
  match left.number?, right.number? with
  | some leftNumber, some rightNumber => some (Ord.compare (rank leftNumber) (rank rightNumber))
  | _, _ => none

def compareMoments (left right : Cell) : Option Ordering :=
  match left.moment?, right.moment? with
  | some leftMoment, some rightMoment => some (Ord.compare leftMoment.rank rightMoment.rank)
  | _, _ => none

/-- The order of two present cells of comparable kinds. Two integers compare exactly; an integer
beside a float is rounded to one first. -/
def compare : Cell → Cell → Option Ordering
  | .int left, .int right => some (Ord.compare left.toInt right.toInt)
  | .text left, .text right => some (Ord.compare left right)
  | left, right => (compareNumbers left right).or (compareMoments left right)

def hexDigits (value : Nat) : List Char :=
  Nat.toDigits 16 value

/-- A text that two present cells of one type share exactly when they compare as equal. -/
def key : Cell → String
  | .null => "n:"
  | .bool value => if value then "b:true" else "b:false"
  | .int value => "i:" ++ intText value.toInt
  | .float value =>
    if isNaN value then "n:"
    else
      let bits := if rank value = 0 then 0 else value.toBits.toNat
      "f:" ++ String.ofList (hexDigits bits)
  | .text value => "t:" ++ natText value.utf8ByteSize ++ ":" ++ value
  | .date value => "d:" ++ value.text
  | .dateTime value => "dt:" ++ value.text

def display : Cell → String
  | .null => ""
  | .bool value => if value then "true" else "false"
  | .int value => intText value.toInt
  | .float value => if isNaN value then "" else Layout.plain.text value
  | .text value => value
  | .date value => value.text
  | .dateTime value => value.secondText

def description (cell : Cell) : String :=
  match cell.type? with
  | some type => s!"a {type.name} value"
  | none => "null"

end Cell

namespace CellType

def accepts (type : CellType) (cell : Cell) : Bool :=
  match cell.type? with
  | none => true
  | some found => found = type

def cast? (type : CellType) (cell : Cell) : Option Cell :=
  match type, cell with
  | .float, .int value => some (.float (ofInt value.toInt))
  | type, cell => if type.accepts cell then some cell else none

end CellType

end TableSieve
