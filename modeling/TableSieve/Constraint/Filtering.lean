import TableSieve.Config.Error
import TableSieve.Table.Basic
import TableSieve.WarningLog

/-!
Filterings: what it gives to narrow a table, the narrowed table or an error, with the warnings that
were raised on the way. A failed filtering keeps the warnings from before its failure.
-/

namespace TableSieve

structure Filtering where
  result : Except ConfigError Table
  warnings : List Warning

namespace Filtering

def done (table : Table) : Filtering :=
  ⟨.ok table, []⟩

def stop (error : ConfigError) : Filtering :=
  ⟨.error error, []⟩

def noting (warning : Warning) (table : Table) : Filtering :=
  ⟨.ok table, [warning]⟩

def ofTable : Except TableError Table → Filtering
  | .ok table => done table
  | .error error => stop (.table error)

def andThen (first : Filtering) (next : Table → Filtering) : Filtering :=
  match first.result with
  | .error _ => first
  | .ok table =>
    let second := next table
    ⟨second.result, first.warnings ++ second.warnings⟩

/-- One step for each item, each on the table that the step before it gave. -/
def steps {α : Type} (step : α → Table → Filtering) : List α → Table → Filtering
  | [], table => done table
  | item :: rest, table => (step item table).andThen (steps step rest)

end Filtering

def Table.missingField? (table : Table) (fields : List String) : Option String :=
  fields.find? fun field => !table.hasColumn field

def Table.checkFields (table : Table) (kind : String) (fields : List String) :
    Except ConfigError Unit :=
  match table.missingField? fields with
  | some field => .error (.missingField kind field)
  | none => .ok ()

end TableSieve
