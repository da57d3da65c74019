import TableSieve.Config.Basic
import TableSieve.Text.Split

/-!
Loading a configuration from a file. The extension of the file's name says in which format it is
written: it is what follows the last dot, and a name that begins with its only dot has none.
-/

namespace TableSieve

open TableSieve.Text

def fileName (path : String) : List Char :=
  let parts := (split '/' path.toList).filter fun part => part ≠ [] && part ≠ ['.']
  parts.getLast?.getD []

def extension (path : String) : String :=
  match (split '.' (fileName path)).reverse with
  | last :: before :: more =>
    if more.isEmpty && before.isEmpty || fileName path = ['.', '.'] then ""
    else String.ofList last
  | _ => ""

namespace Config

/-- Reads a file first, and then asks for its format. -/
def load (readFile : String → Except String String) (path : String) : Except ConfigError Config :=
  match readFile path with
  | .error reason => .error (.unreadable reason)
  | .ok text =>
    match extension path with
    | "toml" => readToml text
    | "json" => readJson text
    | other => .error (.unknownFormat other path)

end Config

end TableSieve
