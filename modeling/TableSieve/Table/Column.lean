import TableSieve.Cell

/-!
Named, typed columns. A column made from cells holds only missing cells and cells of its type;
integers are widened when the type is float. An inferred type is that of the first present cell,
except that integers followed by a float make a float column, and nothing present makes one as well.
-/

namespace TableSieve

structure Column where
  name : String
  type : CellType
  cells : List Cell
  deriving DecidableEq

inductive TableError
  | wrongLength (column : String) (expected actual : Nat)
  | duplicateColumn (column : String)
  | wrongType (column : String) (type : CellType) (row : Nat) (found : Cell)
  | columnCount (expected found : Nat)
  | missingColumn (column : String)
  | unknownColumn (column : String)
  deriving DecidableEq

def TableError.message : TableError → String
  | .wrongLength column expected actual =>
    s!"column '{column}' has {actual} rows, expected {expected}"
  | .duplicateColumn column => s!"duplicate column name: {column}"
  | .wrongType column type row found =>
    s!"column '{column}' is {type.name} but row {row} holds {found.description}"
  | .columnCount expected found =>
    s!"schema mismatch: expected {expected} columns, found {found}"
  | .missingColumn column => s!"schema mismatch: column '{column}' missing"
  | .unknownColumn column => s!"column not found: {column}"

namespace Column

def castCells (type : CellType) (row : Nat) : List Cell → Except (Nat × Cell) (List Cell)
  | [] => .ok []
  | cell :: rest =>
    match type.cast? cell with
    | none => .error (row, cell)
    | some fit => (castCells type (row + 1) rest).map (fit :: ·)

def ofCells (name : String) (type : CellType) (cells : List Cell) : Except TableError Column :=
  match castCells type 0 cells with
  | .ok fit => .ok ⟨name, type, fit⟩
  | .error (row, found) => .error (.wrongType name type row found)

def joinType (current : Option CellType) (cell : Cell) : Option CellType :=
  match current, cell.type? with
  | current, none => current
  | none, found => found
  | some .int, some .float => some .float
  | some known, some _ => some known

def inferredType (cells : List Cell) : CellType :=
  (cells.foldl joinType none).getD .float

def infer (name : String) (cells : List Cell) : Except TableError Column :=
  ofCells name (inferredType cells) cells

def missing (column : Column) : List Bool :=
  column.cells.map Cell.isMissing

def allMissing (column : Column) : Bool :=
  column.cells.all Cell.isMissing

def WellTyped (column : Column) : Prop :=
  ∀ cell ∈ column.cells, column.type.accepts cell = true

end Column

end TableSieve
