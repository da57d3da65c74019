import TableSieve.Constraint.Filtering
import TableSieve.Constraint.Matcher
import TableSieve.Text.Split

/-!
Rules on combinations of fields. Under each condition of a rule, rows whose source fields match the
condition must have one of the allowed values in the target field. Rows that match no condition
stay.
-/

namespace TableSieve

open TableSieve.Text

inductive SourceFields
  | single (name : String)
  | composite (names : List String)
  deriving DecidableEq

structure Condition where
  when : List Matcher
  allowed : List Matcher
  deriving DecidableEq

structure CombinationRule where
  source : SourceFields
  target : String
  conditions : List Condition
  deriving DecidableEq

structure Combinations where
  rules : List CombinationRule
  deriving DecidableEq

/-- A text without the blanks around it and one pair of quotes. -/
def unquote (chars : List Char) : List Char :=
  let trimmed := trimChars chars
  (between? '\'' '\'' trimmed).getD ((between? '"' '"' trimmed).getD trimmed)

def tupleParts? (chars : List Char) : Option (List String) :=
  (between? '(' ')' (trimChars chars)).map fun inner =>
    (split ',' inner).map fun part => String.ofList (unquote part)

namespace SourceFields

def names : SourceFields → List String
  | .single name => [name]
  | .composite names => names

def arity (source : SourceFields) : Nat :=
  source.names.length

def text : SourceFields → String
  | .single name => name
  | .composite names => "(" ++ ", ".intercalate names ++ ")"

/-- A field name, or a tuple of names none of which is empty. -/
def ofText? (text : String) : Option SourceFields :=
  match tupleParts? text.toList with
  | some names => if names.any String.isEmpty then none else some (.composite names)
  | none => if isBlankText text then none else some (.single (trim text))

def ofShape : OneOrMany String → Except CombinationFault SourceFields
  | .one name => .ok (.single name)
  | .many names => if names.isEmpty then .error .noSource else .ok (.composite names)

end SourceFields

namespace Condition

def of (source : SourceFields) (key : String) (when : List Matcher) (allowed : ScalarList) :
    Except CombinationFault Condition :=
  if when.length ≠ source.arity then
    .error (.arity key when.length source.text source.arity)
  else .ok ⟨when, allowed.toList.map Matcher.ofScalar⟩

def keyMatchers (source : SourceFields) (key : String) : Except CombinationFault (List Matcher) :=
  let matcher (text : String) : Matcher := .ofScalar (some (.text text))
  match source with
  | .single _ => .ok [matcher (String.ofList (unquote key.toList))]
  | .composite _ =>
    match tupleParts? key.toList with
    | some parts => .ok (parts.map matcher)
    | none => .error (.notATuple key)

def ofEntry (source : SourceFields) (entry : String × ScalarList) :
    Except CombinationFault Condition := do
  of source entry.1 (← keyMatchers source entry.1) entry.2

def ofShape (source : SourceFields) (shape : ConditionShape) : Except CombinationFault Condition :=
  of source (shape.when.json scalarJson).compact (shape.when.toList.map Matcher.ofScalar)
    shape.allow

def applies (condition : Condition) (sources : List Cell) : Bool :=
  (condition.when.zip sources).all fun pair => pair.1.accepts pair.2

def allows (condition : Condition) (target : Cell) : Bool :=
  condition.allowed.any fun matcher => matcher.accepts target

end Condition

namespace CombinationRule

def of (source : SourceFields) (target : String) (conditions : List Condition) :
    Except CombinationFault CombinationRule :=
  if isBlankText target then .error .blankTarget
  else if source.names.any isBlankText then .error .blankSource
  else .ok ⟨source, target, conditions⟩

def ofPair (fields : NameMap String) (conditions : NameMap ScalarList) :
    Except CombinationFault CombinationRule :=
  match fields with
  | [(key, target)] =>
    match SourceFields.ofText? key with
    | none => .error (.badSource key)
    | some source => do of source target (← List.mapM (Condition.ofEntry source) conditions)
  | _ => .error (.fieldCount (List.length fields))

def ofShape : CombinationShape → Except CombinationFault CombinationRule
  | .pair fields conditions => ofPair fields conditions
  | .parts names target conditions => do
    let source ← SourceFields.ofShape names
    of source target (← conditions.mapM (Condition.ofShape source))

def fieldList (rule : CombinationRule) : List String :=
  rule.source.names ++ [rule.target]

/-- No condition that applies to the source cells refuses the target cell. -/
def holds (rule : CombinationRule) (sources : List Cell) (target : Cell) : Bool :=
  rule.conditions.all fun condition => !condition.applies sources || condition.allows target

def keptRows (rule : CombinationRule) (table : Table) : Except TableError (List Bool) := do
  let sources ← rule.source.names.mapM table.column
  let target ← table.column rule.target
  .ok (List.zipWith rule.holds (transpose table.size (sources.map Column.cells)) target.cells)

def apply (rule : CombinationRule) (table : Table) : Filtering :=
  match rule.keptRows table with
  | .error error => .stop (.table error)
  | .ok keep => .done (table.filter keep)

end CombinationRule

namespace Combinations

def ofShapes (index : Nat) : List CombinationShape → Except ConfigError (List CombinationRule)
  | [] => .ok []
  | shape :: rest =>
    match CombinationRule.ofShape shape with
    | .error fault => .error (.badCombination index fault)
    | .ok rule => (ofShapes (index + 1) rest).map (rule :: ·)

def read (json : Json) : Except ConfigError Combinations := do
  let shapes ← (readCombinations json).mapError .badShape
  (ofShapes 0 shapes).map Combinations.mk

def fields (combinations : Combinations) : List String :=
  sortNames (combinations.rules.flatMap CombinationRule.fieldList)

def filter (combinations : Combinations) (table : Table) : Filtering :=
  Filtering.steps CombinationRule.apply combinations.rules table

end Combinations

end TableSieve
