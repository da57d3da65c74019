import TableSieve.Config.Shape
import TableSieve.Constraint.Filtering
import TableSieve.Text.Blank

/-!
Rules that spread missing cells. A main field may delete the rows in which it is missing, or erase
related fields in those rows and fill the missing cells of related fields in the others. All
deletions come first; the other rules follow in the order of their main fields.
-/

namespace TableSieve

open TableSieve.Text

inductive NullAction
  | delete
  | spread (erase copy : List String)
  deriving DecidableEq

structure NullRule where
  main : String
  action : NullAction
  deriving DecidableEq

structure NullGroups where
  rules : List NullRule
  deriving DecidableEq

structure NullActions where
  delete : Bool
  erase : List String
  copy : List String

namespace NullRule

def relatedNames (main action : String) (related : OneOrMany String) :
    Except NullRuleFault (List String) :=
  if related.toList.isEmpty || related.toList.any isBlankText then
    .error (.blankRelated main action)
  else .ok related.toList

def addAction (main : String) (actions : NullActions) (entry : String × OneOrMany String) :
    Except NullRuleFault NullActions :=
  match entry.1 with
  | "delete" => .ok { actions with delete := true }
  | "erase" => (relatedNames main entry.1 entry.2).map fun names => { actions with erase := names }
  | "copy" => (relatedNames main entry.1 entry.2).map fun names => { actions with copy := names }
  | other => .error (.unknownAction main other)

def actionOf (main : String) (actions : NullActions) : Except NullRuleFault NullAction :=
  if actions.delete then
    if actions.erase.isEmpty && actions.copy.isEmpty then .ok .delete
    else .error (.deleteWithOthers main)
  else .ok (.spread actions.erase actions.copy)

def readAction (main : String) : NullRuleShape → Except NullRuleFault NullAction
  | .action name => if name = "delete" then .ok .delete else .error (.bareAction main name)
  | .actions related =>
    if related.isEmpty then .error (.noActions main)
    else do actionOf main (← related.foldlM (addAction main) ⟨false, [], []⟩)

def ofEntry (entry : String × NullRuleShape) : Except NullRuleFault NullRule :=
  if isBlankText entry.1 then .error .blankMain
  else (readAction entry.1 entry.2).map fun action => ⟨entry.1, action⟩

def fieldList (rule : NullRule) : List String :=
  match rule.action with
  | .delete => [rule.main]
  | .spread erase copy => rule.main :: (erase ++ copy)

end NullRule

namespace NullGroups

def ofShape (shape : NameMap NullRuleShape) : Except NullRuleFault NullGroups :=
  (List.mapM NullRule.ofEntry shape).map NullGroups.mk

def read (json : Json) : Except ConfigError NullGroups := do
  let shape ← (readNullRules json).mapError .badShape
  (ofShape shape).mapError .badNullRule

def fields (groups : NullGroups) : List String :=
  sortNames (groups.rules.flatMap NullRule.fieldList)

def deleteFields (groups : NullGroups) : List String :=
  groups.rules.filterMap fun rule => if rule.action = .delete then some rule.main else none

def selfReference (main action : String) : Warning :=
  ⟨"self_reference", nullGroupsName, s!"{main}.{action}.{main}",
    s!"'{main}' lists itself as a related field; skipped"⟩

def incompatible (main related : String) (source target : CellType) : Warning :=
  ⟨"incompatible_dtype", nullGroupsName, s!"{main}.copy.{related}",
    s!"cannot copy {source.name} field '{main}' into {target.name} field '{related}'"⟩

def eraseCell (main related : Cell) : Cell :=
  if main.isMissing then .null else related

/-- A missing cell takes the main cell, cast to the type of its column. -/
def copyCell (type : CellType) (main related : Cell) : Cell :=
  if related.isMissing && !main.isMissing then (type.cast? main).getD .null else related

def eraseInto (table : Table) (main related : String) : Except TableError Table := do
  let source ← table.column main
  let target ← table.column related
  table.withCells related (List.zipWith eraseCell source.cells target.cells)

def erase (main related : String) (table : Table) : Filtering :=
  if related = main then .noting (selfReference main "erase") table
  else .ofTable (eraseInto table main related)

def copyInto (table : Table) (source target : Column) : Except TableError Table :=
  table.withCells target.name (List.zipWith (copyCell target.type) source.cells target.cells)

def copy (main related : String) (table : Table) : Filtering :=
  if related = main then .noting (selfReference main "copy") table
  else match table.column main, table.column related with
    | .ok source, .ok target =>
      if source.type.canCastTo target.type then .ofTable (copyInto table source target)
      else .noting (incompatible main related source.type target.type) table
    | .error error, _ => .stop (.table error)
    | _, .error error => .stop (.table error)

def applyRule (rule : NullRule) (table : Table) : Filtering :=
  match rule.action with
  | .delete => .done table
  | .spread erased copied =>
    (Filtering.steps (erase rule.main) erased table).andThen
      (Filtering.steps (copy rule.main) copied)

def keepPresent (keep : List Bool) (column : Column) : List Bool :=
  List.zipWith (fun mark cell => mark && !cell.isMissing) keep column.cells

def keptRows (groups : NullGroups) (table : Table) : Except TableError (List Bool) := do
  let columns ← groups.deleteFields.mapM table.column
  .ok (columns.foldl keepPresent (List.replicate table.size true))

def filter (groups : NullGroups) (table : Table) : Filtering :=
  match groups.keptRows table with
  | .error error => .stop (.table error)
  | .ok keep => Filtering.steps applyRule groups.rules (table.filter keep)

end NullGroups

end TableSieve
