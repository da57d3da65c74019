import TableSieve.Proofs.Resampling
import TableSieve.Proofs.Validating

/-!
Resampling from the data itself. Whatever numbers come, a bootstrap draw is a table of the columns
of its reference, the pipeline keeps the columns, and tables of the same columns can be put one
below the other: nothing in a run that could begin can fail, as long as there is room for what it
draws.
-/

namespace TableSieve

open TableSieve.Random

namespace Random

end Random

/-! Draws of the bootstrap source. -/

section

variable {State : Type} {numbers : Numbers State}

end

/-! Runs on a steady source. -/

theorem Table.WellFormed.sample {table : Table} (wellFormed : table.WellFormed)
    {sampler : Sampler} (lawful : sampler.Lawful) {count : Nat} (enough : count ≤ table.size)
    (seed : UInt64) :
    (table.sample sampler count seed).WellFormed ∧
      (table.sample sampler count seed).schema = table.schema := by
  obtain ⟨positions, selected⟩ := wellFormed.sample_selected lawful enough seed
  rw [selected.taken]
  exact ⟨wellFormed.take selected.inRange, Table.schema_take positions⟩

theorem Pipeline.validate_of_schema {table other : Table} (sameSchema : table.schema = other.schema)
    (pipeline : Pipeline) : pipeline.validate table = pipeline.validate other :=
  Constraint.forM_validate_of_schema sameSchema pipeline.constraints

namespace Resampler

variable {State : Type} {sampler : Sampler} {resampler : Resampler} {data : Table} {target : Nat}

end Resampler

end TableSieve
