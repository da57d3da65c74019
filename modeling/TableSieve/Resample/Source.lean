import TableSieve.Random.Choice
import TableSieve.Table.Basic

/-!
Sources of rows. A source has a state, which every draw may change, also one that fails. The
bootstrap source draws the cells of each column on their own, with repetition, from the cells of a
reference table, so it keeps the columns but not what ties them together.
-/

namespace TableSieve

open TableSieve.Number TableSieve.Random

/-- Why a draw gives no rows. A source may refuse with a reason; when it asks for a column that is
longer than any can be, the program itself stops. -/
inductive DrawFault
  | refused (reason : String)
  | overflow
  deriving DecidableEq

structure Source (State : Type) where
  draw : Nat → State → Except DrawFault Table × State

/-- The most cells of a column: 24 bytes each, in an address space of signed 64-bit offsets. -/
def columnRoom : Nat :=
  (twoTo 63 - 1) / 24

variable {State : Type}

def drawColumns (numbers : Numbers State) (size count : Nat) (state : State) :
    List Column → List Column × State
  | [] => ([], state)
  | column :: rest =>
    let (positions, state) := drawEach numbers size state count
    let (columns, state) := drawColumns numbers size count state rest
    ({ column with cells := gather positions column.cells } :: columns, state)

def tableOfDrawn (columns : List Column) : Except TableError Table := do
  Table.ofColumns (← columns.mapM fun column => Column.ofCells column.name column.type column.cells)

def refusal (error : TableError) : DrawFault :=
  .refused error.message

/-- The bootstrap source of a reference table with at least one row. All cells of a column are made
room for before the first is drawn. -/
def bootstrap (numbers : Numbers State) (room : Nat) (reference : Table) : Source State where
  draw count state :=
    if room < count && !reference.columns.isEmpty then (.error .overflow, state)
    else
      let (columns, state) := drawColumns numbers reference.size count state reference.columns
      ((tableOfDrawn columns).mapError refusal, state)

end TableSieve
