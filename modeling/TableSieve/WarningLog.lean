import TableSieve.Json.Basic

/-!
Warnings raised while constraints are built and applied. A log keeps them in the order in which they
were recorded, together with a count for every code, so that a caller need not read the messages.
-/

namespace TableSieve

/-- The constraint is the kind that raised the warning, the rule what the warning is about. -/
structure Warning where
  code : String
  constraint : String
  rule : String
  message : String
  deriving DecidableEq

structure WarningLog where
  warnings : List Warning
  counts : NameMap Nat
  deriving DecidableEq

def addCount (more : Nat) (present : Option Nat) : Nat :=
  present.getD 0 + more

namespace WarningLog

def empty : WarningLog :=
  ⟨[], []⟩

def isEmpty (log : WarningLog) : Bool :=
  log.warnings.isEmpty

def size (log : WarningLog) : Nat :=
  log.warnings.length

def record (log : WarningLog) (warning : Warning) : WarningLog :=
  ⟨log.warnings ++ [warning], log.counts.alter warning.code (addCount 1)⟩

def recordAll (log : WarningLog) (warnings : List Warning) : WarningLog :=
  warnings.foldl record log

def merge (log other : WarningLog) : WarningLog :=
  ⟨log.warnings ++ other.warnings,
    other.counts.foldl (fun counts entry => counts.alter entry.1 (addCount entry.2)) log.counts⟩

def count (log : WarningLog) (code : String) : Nat :=
  (log.counts.get? code).getD 0

end WarningLog

def Warning.json (warning : Warning) : Json :=
  .object [("code", .text warning.code), ("constraint", .text warning.constraint),
    ("rule", .text warning.rule), ("message", .text warning.message)]

namespace WarningLog

def warningsJson (log : WarningLog) : Json :=
  .array (log.warnings.map Warning.json)

def countsJson (log : WarningLog) : Json :=
  .object (List.map (fun entry => (entry.1, Json.nat entry.2)) log.counts)

def json (log : WarningLog) : Json :=
  .object [("warnings", log.warningsJson), ("warnings_by_code", log.countsJson)]

end WarningLog

end TableSieve
