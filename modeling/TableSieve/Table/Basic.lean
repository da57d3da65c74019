import TableSieve.Table.Column
import TableSieve.Table.Selection

/-!
Tables: columns of one length with different names. An operation gives a new table or the first
error that it meets, and never changes its argument.
-/

namespace TableSieve

structure Table where
  columns : List Column
  size : Nat
  deriving DecidableEq

def transpose {α : Type} (length : Nat) (lists : List (List α)) : List (List α) :=
  lists.foldr (List.zipWith List.cons) (List.replicate length [])

namespace Table

structure WellFormed (table : Table) : Prop where
  names_distinct : (table.columns.map Column.name).Nodup
  lengths : ∀ column ∈ table.columns, column.cells.length = table.size
  cells : ∀ column ∈ table.columns, column.WellTyped

def firstFault? (size : Nat) (seen : List String) : List Column → Option TableError
  | [] => none
  | column :: rest =>
    if seen.contains column.name then some (.duplicateColumn column.name)
    else if column.cells.length ≠ size then
      some (.wrongLength column.name size column.cells.length)
    else firstFault? size (column.name :: seen) rest

/-- The first column sets the number of rows. -/
def ofColumns (columns : List Column) : Except TableError Table :=
  let size := (columns.head?.map (·.cells.length)).getD 0
  match firstFault? size [] columns with
  | some fault => .error fault
  | none => .ok ⟨columns, size⟩

def names (table : Table) : List String :=
  table.columns.map Column.name

def schema (table : Table) : List (String × CellType) :=
  table.columns.map fun column => (column.name, column.type)

def isEmpty (table : Table) : Bool :=
  table.size = 0

def column? (table : Table) (name : String) : Option Column :=
  table.columns.find? (·.name == name)

def hasColumn (table : Table) (name : String) : Bool :=
  (table.column? name).isSome

def column (table : Table) (name : String) : Except TableError Column :=
  match table.column? name with
  | some column => .ok column
  | none => .error (.unknownColumn name)

def rows (table : Table) : List (List Cell) :=
  transpose table.size (table.columns.map Column.cells)

def mapCells (table : Table) (size : Nat) (select : List Cell → List Cell) : Table :=
  ⟨table.columns.map fun column => { column with cells := select column.cells }, size⟩

/-- Keeps the rows whose mark is true; rows beyond the mask are dropped. -/
def filter (table : Table) (mask : List Bool) : Table :=
  table.mapCells ((mask.take table.size).count true) (keepMarked mask)

/-- The rows at the positions, in their order. The program stops at a position out of range; here
such a position is passed over, so what is proved of it is told for positions in range. -/
def take (table : Table) (positions : List Nat) : Table :=
  table.mapCells positions.length (gather positions)

def emptyLike (table : Table) : Table :=
  table.take []

def withCells (table : Table) (name : String) (cells : List Cell) : Except TableError Table := do
  let column ← table.column name
  if cells.length ≠ table.size then
    .error (.wrongLength name table.size cells.length)
  else
    let filled ← Column.ofCells name column.type cells
    .ok { table with columns := table.columns.map fun other =>
      if other.name == name then filled else other }

/-- The column with the cells of another below its own. The type is that of the upper cells, unless
none of them is present. -/
def joinColumn (upper lower : Column) : Except TableError Column :=
  let type := if upper.allMissing then lower.type else upper.type
  Column.ofCells upper.name type (upper.cells ++ lower.cells)

def joinBelow (lower : Table) (column : Column) : Except TableError Column :=
  match lower.column? column.name with
  | none => .error (.missingColumn column.name)
  | some incoming => joinColumn column incoming

def concat (upper lower : Table) : Except TableError Table := do
  if upper.columns.length ≠ lower.columns.length then
    .error (.columnCount upper.columns.length lower.columns.length)
  else
    let columns ← upper.columns.mapM lower.joinBelow
    .ok ⟨columns, upper.size + lower.size⟩

def keySeparator : String := "\u001f"

def rowKey (row : List Cell) : String :=
  keySeparator.intercalate (row.map Cell.key)

def distinct (table : Table) : Table :=
  table.filter (markFirsts (table.rows.map rowKey))

end Table

end TableSieve
