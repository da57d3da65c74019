import TableSieve.Table.Basic
import TableSieve.Random.Choice

/-!
Random rows of a table: a uniform choice of different rows, which keep their order.
-/

namespace TableSieve.Table

open TableSieve.Random

/-- All rows if that few are asked for, else those that the sampler chooses. -/
def sample (table : Table) (sampler : Sampler) (count : Nat) (seed : UInt64) : Table :=
  if table.size ≤ count then table
  else table.take ((sampler table.size count seed).mergeSort (· ≤ ·))

end TableSieve.Table
