import TableSieve.Calendar.Reading
import TableSieve.Number.Reading
import TableSieve.Table.Column

/-!
Columns of texts. A text is a missing mark or is read as a cell of a type; the type of a column is
the first one, in a fixed order, that every text fits. Any text fits the last of the types. Cells
are written in such a way that a column read from texts reads back as it was.
-/

namespace TableSieve.Csv

open TableSieve.Calendar TableSieve.Number

def missingMarks : List String :=
  ["", "NA", "NaN", "nan", "null", "pd.NA"]

def readBool? (text : String) : Option Bool :=
  let name := String.ofList (text.toList.map Char.toLower)
  if name = "true" then some true
  else if name = "false" then some false
  else none

def readPresent? (type : CellType) (text : String) : Option Cell :=
  match type with
  | .int => (readInt64? text.toList).map .int
  | .float => (readFloat? text.toList).map .float
  | .bool => (readBool? text).map .bool
  | .date => (readDate text.toList).toOption.map .date
  | .dateTime => (readAnyDateTime? text.toList).map .dateTime
  | .text => some (.text text)

def readCell? (type : CellType) (text : String) : Option Cell :=
  if missingMarks.contains text then some .null else readPresent? type text

def candidateTypes : List CellType :=
  [.int, .float, .bool, .date, .dateTime, .text]

def fitsAll (texts : List String) (type : CellType) : Bool :=
  texts.all fun text => (readCell? type text).isSome

def typeOf (texts : List String) : CellType :=
  (candidateTypes.find? (fitsAll texts)).getD .text

def columnOf (name : String) (texts : List String) : Except TableError Column :=
  let type := typeOf texts
  Column.ofCells name type (texts.map fun text => (readCell? type text).getD .null)

/-- A float keeps a point or an exponent, so that it does not read as an integer. -/
def cellText (cell : Cell) : String :=
  match cell with
  | .float value => if isNaN value then "" else Layout.literal.text value
  | other => other.display

end TableSieve.Csv
