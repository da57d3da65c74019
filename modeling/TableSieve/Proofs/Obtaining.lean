import TableSieve.Proofs.Bootstrapping

/-!
Tables that come about. A table is made of columns, and the one in use is then filtered, filled,
appended to, sampled, or rid of repeated rows, in any order and any number of times; an operation
that fails leaves it as it is. What one operation keeps, every run of them keeps: such a table is
always well formed.
-/

namespace TableSieve

inductive Column.Made : Column → Prop
  | ofCells {name : String} {type : CellType} {cells : List Cell} {column : Column}
      (built : Column.ofCells name type cells = .ok column) : Made column
  | infer {name : String} {cells : List Cell} {column : Column}
      (built : Column.infer name cells = .ok column) : Made column

theorem Column.Made.wellTyped {column : Column} (made : column.Made) : column.WellTyped := by
  cases made with
  | ofCells built => exact wellTyped_of_ofCells built
  | infer built => exact wellTyped_of_ofCells built

namespace Table

open TableSieve.Random

/-- What can be done to the table in use. Rows are sampled by any sampler that is lawful. -/
inductive Operation
  | filter (mask : List Bool)
  | take (positions : List Nat)
  | emptyLike
  | withCells (name : String) (cells : List Cell)
  | concat (lower : Table)
  | distinct
  | sample (sampler : Sampler) (lawful : sampler.Lawful) (count : Nat) (seed : UInt64)

namespace Operation

def apply (operation : Operation) (table : Table) : Except TableError Table :=
  match operation with
  | .filter mask => .ok (table.filter mask)
  | .take positions => .ok (table.take positions)
  | .emptyLike => .ok table.emptyLike
  | .withCells name cells => table.withCells name cells
  | .concat lower => table.concat lower
  | .distinct => .ok table.distinct
  | .sample sampler _ count seed => .ok (table.sample sampler count seed)

def after (operation : Operation) (table : Table) : Table :=
  match operation.apply table with
  | .ok next => next
  | .error _ => table

def InRange (table : Table) : Operation → Prop
  | .take positions => ∀ position ∈ positions, position < table.size
  | _ => True

def lower? : Operation → Option Table
  | .concat lower => some lower
  | _ => none

end Operation

/-- A table made of columns, or the one in use after an operation on such a table. A table that an
operation appends comes about in the same way. -/
inductive Obtained : Table → Prop
  | ofColumns {columns : List Column} {table : Table} (made : ∀ column ∈ columns, column.Made)
      (built : Table.ofColumns columns = .ok table) : Obtained table
  | after {table : Table} (before : Obtained table) (operation : Operation)
      (inRange : operation.InRange table)
      (lowerObtained : ∀ lower, operation.lower? = some lower → Obtained lower) :
      Obtained (operation.after table)

theorem WellFormed.sample_any {table : Table} (wellFormed : table.WellFormed)
    {sampler : Sampler} (lawful : sampler.Lawful) (count : Nat) (seed : UInt64) :
    (table.sample sampler count seed).WellFormed := by
  by_cases enough : count ≤ table.size
  · exact (wellFormed.sample lawful enough seed).1
  · have all : table.size ≤ count := by omega
    simpa [Table.sample, all] using wellFormed

theorem Operation.wellFormed_after {operation : Operation} {table : Table}
    (wellFormed : table.WellFormed) (inRange : operation.InRange table)
    (lowerWellFormed : ∀ lower, operation.lower? = some lower → lower.WellFormed) :
    (operation.after table).WellFormed := by
  unfold after
  split
  · rename_i next done
    cases operation with
    | filter mask =>
        obtain rfl := Except.ok.inj done
        exact wellFormed.filter mask
    | take positions =>
        obtain rfl := Except.ok.inj done
        exact wellFormed.take inRange
    | emptyLike =>
        obtain rfl := Except.ok.inj done
        exact wellFormed.take (List.forall_mem_nil _)
    | withCells name cells => exact (wellFormed.of_withCells done).1
    | concat lower => exact wellFormed.concat (lowerWellFormed lower rfl) done
    | distinct =>
        obtain rfl := Except.ok.inj done
        exact wellFormed.distinct
    | sample sampler lawful count seed =>
        obtain rfl := Except.ok.inj done
        exact wellFormed.sample_any lawful count seed
  · exact wellFormed

theorem Obtained.wellFormed {table : Table} (obtained : Obtained table) : table.WellFormed := by
  induction obtained with
  | ofColumns made built =>
      exact wellFormed_of_ofColumns (fun column member => (made column member).wellTyped) built
  | after _ operation inRange _ wellFormed lowerWellFormed =>
      exact operation.wellFormed_after wellFormed inRange lowerWellFormed

/-- However a table came about, its columns have as many cells as it has rows, their names differ,
and every cell is missing or of the type of its column. -/
theorem Obtained.keeps_shape {table : Table} (obtained : Obtained table) :
    (∀ column ∈ table.columns, column.cells.length = table.size) ∧ table.names.Nodup ∧
      ∀ column ∈ table.columns, ∀ cell ∈ column.cells,
        cell.isMissing = true ∨ cell.type? = some column.type := by
  have wellFormed := obtained.wellFormed
  refine ⟨wellFormed.lengths, wellFormed.names_distinct, ?_⟩
  intro column member cell inside
  have accepted := wellFormed.cells column member cell inside
  cases missing : cell.isMissing with
  | true => exact Or.inl rfl
  | false => exact Or.inr (Cell.type?_of_accepts accepted missing)

theorem Obtained.keeps_shape_switched :
    let upper : Table :=
      ⟨[⟨"x", .float, [.null, .float Number.notANumber]⟩, ⟨"team", .text, [.text "a", .text "b"]⟩],
        2⟩
    let lower : Table := ⟨[⟨"team", .text, [.text "c"]⟩, ⟨"x", .int, [.int 5]⟩], 1⟩
    let joined : Table := (Operation.concat lower).after upper
    let refused : Table := (Operation.withCells "x" [.int 1, .text "c", .null]).after joined
    let last : Table := (Operation.take [2, 1, 2]).after refused
    Obtained last ∧
      last = ⟨[⟨"x", .int, [.int 5, .float Number.notANumber, .int 5]⟩,
        ⟨"team", .text, [.text "c", .text "b", .text "c"]⟩], 3⟩ ∧
      (∀ column ∈ last.columns, column.cells.length = last.size) ∧ last.names.Nodup ∧
        ∀ column ∈ last.columns, ∀ cell ∈ column.cells,
          cell.isMissing = true ∨ cell.type? = some column.type := by
  intro upper lower joined refused last
  have made : ∀ table : Table, (∀ column ∈ table.columns, column.WellTyped) →
      ∀ column ∈ table.columns, column.Made :=
    fun _ typed column member => .ofCells (typed column member).ofCells_eq
  have upperObtained : Obtained upper := .ofColumns (made upper (by decide +kernel)) rfl
  have lowerObtained : Obtained lower := .ofColumns (made lower (by decide +kernel)) rfl
  have joinedObtained : Obtained joined := by
    refine .after upperObtained _ trivial ?_
    rintro _ ⟨⟩
    exact lowerObtained
  have refusedObtained : Obtained refused := .after joinedObtained _ trivial nofun
  have lastObtained : Obtained last := by
    refine .after refusedObtained _ ?_ nofun
    have rows : ∀ position ∈ [2, 1, 2], position < refused.size := by decide +kernel
    exact rows
  exact ⟨lastObtained, by decide +kernel, Obtained.keeps_shape lastObtained⟩

end Table

end TableSieve
