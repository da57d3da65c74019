import TableSieve.Formula.Parser
import TableSieve.Json.Writer
import TableSieve.Table.Column
import TableSieve.Text.Quotation

/-!
What can be wrong with a configuration, or with a table that a constraint is applied to. An error
names its cause; its message is what a user reads.
-/

namespace TableSieve

open TableSieve.Number TableSieve.Text

def nullGroupsName : String := "nan_groups"

def formulasName : String := "field_constraints"

def combinationsName : String := "field_combinations"

inductive NullRuleFault
  | blankMain
  | bareAction (main action : String)
  | noActions (main : String)
  | blankRelated (main action : String)
  | unknownAction (main action : String)
  | deleteWithOthers (main : String)
  deriving DecidableEq

inductive CombinationFault
  | fieldCount (found : Nat)
  | badSource (text : String)
  | noSource
  | notATuple (key : String)
  | arity (key : String) (found : Nat) (source : String) (expected : Nat)
  | blankTarget
  | blankSource
  deriving DecidableEq

inductive ShapeFault
  | notAMap (found : Json)
  | badNullRule
  | notFormulas
  | notText (index : Nat) (found : Json)
  | noFormulas
  | notRules
  | badRule (index : Nat)

/-- The errors of the built-in kinds and of reading a configuration; the last is for kinds that are
not built in. -/
inductive ConfigError
  | badFormula (index : Nat) (text : String) (error : FormulaError)
  | badNullRule (fault : NullRuleFault)
  | badCombination (index : Nat) (fault : CombinationFault)
  | badShape (fault : ShapeFault)
  | unknownFormat (extension path : String)
  | missingField (kind field : String)
  | badJson
  | badToml
  | unreadable (reason : String)
  | table (error : TableError)
  | invalid (subject message : String)

def NullRuleFault.message : NullRuleFault → String
  | .blankMain => "main field name is empty"
  | .bareAction main action => s!"'{main}': bare action must be \"delete\", found \"{action}\""
  | .noActions main => s!"'{main}': no actions configured"
  | .blankRelated main action => s!"'{main}.{action}': related field names must be non-empty"
  | .unknownAction main action =>
    s!"'{main}': unknown action \"{action}\" (expected delete, erase or copy)"
  | .deleteWithOthers main =>
    s!"'{main}': \"delete\" cannot be combined with \"erase\" or \"copy\""

def CombinationFault.message : CombinationFault → String
  | .fieldCount found => s!"field map must have exactly one entry, found {natText found}"
  | .badSource text => s!"invalid source key '{text}'"
  | .noSource => "source field list is empty"
  | .notATuple key => s!"condition key '{key}' must be a tuple like \"(a, b)\""
  | .arity key found source expected =>
    s!"condition '{key}' has {natText found} value(s) but source {source} has {natText expected}"
  | .blankTarget => "target field name is empty"
  | .blankSource => "source field names must be non-empty"

def Json.description : Json → String
  | .null => "null"
  | .bool value => if value then "boolean `true`" else "boolean `false`"
  | .int value => "integer `" ++ intText value ++ "`"
  | .float value => "floating point `" ++ Json.floatText value ++ "`"
  | .text value => "string " ++ quotation value
  | .array _ => "sequence"
  | .object _ => "map"

def ShapeFault.kind : ShapeFault → String
  | .notAMap _ | .badNullRule => nullGroupsName
  | .notFormulas | .notText _ _ | .noFormulas => formulasName
  | .notRules | .badRule _ => combinationsName

def nullGroupsShape : String :=
  "expected \x7bmain_field: \"delete\" | \x7baction: field(s)\x7d\x7d: "

def combinationShape : String :=
  "expected [\x7bsource: target\x7d, \x7bvalue: allowed\x7d] or " ++
    "\x7bsource, target, conditions\x7d: "

def noVariant (form : String) : String :=
  "data did not match any variant of untagged enum " ++ form

def ShapeFault.message : ShapeFault → String
  | .notAMap found => nullGroupsShape ++ "invalid type: " ++ found.description ++ ", expected a map"
  | .badNullRule => nullGroupsShape ++ noVariant "NanRuleConfig"
  | .notFormulas => "expected a list of expressions"
  | .notText index found => s!"entry {natText index} must be a string, found {found.compact}"
  | .noFormulas => "at least one expression is required"
  | .notRules => "expected a list of rules"
  | .badRule index =>
    "entry " ++ natText index ++ ": " ++ combinationShape ++ noVariant "FieldCombinationEntry"

def invalidMessage (subject message : String) : String :=
  s!"invalid {subject} configuration: {message}"

def ConfigError.message : ConfigError → String
  | .badFormula index text error =>
    s!"{formulasName}[{natText index}] '{text}': {error.message}"
  | .badNullRule fault => invalidMessage nullGroupsName fault.message
  | .badCombination index fault =>
    invalidMessage combinationsName s!"entry {natText index}: {fault.message}"
  | .badShape fault => invalidMessage fault.kind fault.message
  | .unknownFormat extension path =>
    invalidMessage "config"
      s!"unsupported config extension {quotation extension} for {path} (expected .json or .toml)"
  | .missingField kind field => s!"field '{field}' referenced by {kind} not found in table"
  | .badJson => "json error"
  | .badToml => "toml error"
  | .unreadable reason => s!"io error: {reason}"
  | .table error => s!"table error: {error.message}"
  | .invalid subject message => invalidMessage subject message

end TableSieve
