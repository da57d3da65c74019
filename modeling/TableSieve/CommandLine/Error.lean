import TableSieve.Csv.Reader
import TableSieve.Number.Digits
import TableSieve.Resample.Run

/-!
Why a command fails. Each message says which part of the work failed and gives the cause.
-/

namespace TableSieve.CommandLine

open TableSieve.Number

inductive CommandError
  | config (error : ConfigError)
  | resample (error : ResampleError)
  | table (error : TableError)
  | csvFault (fault : Csv.Fault)
  | csvFile (reason : String)
  | file (reason : String)
  | invalidConfig (path : String) (issues : Nat) (first : Warning)
  | emptyReference

def CommandError.message : CommandError → String
  | .config error => s!"config error: {error.message}"
  | .resample error => s!"resample error: {error.message}"
  | .table error => s!"table error: {error.message}"
  | .csvFault fault => s!"csv error: {fault.message}"
  | .csvFile reason => s!"csv error: {reason}"
  | .file reason => s!"io error: {reason}"
  | .invalidConfig path issues first =>
    s!"invalid configuration: {path} violates the configuration schema " ++
      s!"({natText issues} issue(s), first: {first.rule}: {first.message})"
  | .emptyReference => "invalid input: cannot bootstrap from an empty table"

end TableSieve.CommandLine
