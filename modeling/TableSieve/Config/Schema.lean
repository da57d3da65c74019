import TableSieve.Config.Basic
import TableSieve.Schema.Violation
import TableSieve.WarningLog

/-!
The schema of configurations. It describes the values of the built-in constraint kinds; members for
other kinds are not checked.
-/

namespace TableSieve

namespace Schema

def fieldList : Schema :=
  .named "FieldList" "One field name or a list of field names."
    (.anyOf [.string, .list false .string])

def nullRule : Schema :=
  .named "NanRuleConfig"
    ("Rule for one main field: the bare string `\"delete\"`, or a map from action " ++
      "(`delete`, `erase`, `copy`) to related field(s).")
    (.anyOf [.string, .map false fieldList])

def scalarValue : Schema :=
  .named "Scalar" "Scalar configuration value."
    (.anyOf [.scalar .boolean none, .scalar .integer (some "int64"),
      .scalar .number (some "double"), .string])

def scalarOrNull : Schema :=
  .anyOf [scalarValue, .scalar .null none]

def scalarList : Schema :=
  .named "ScalarList" "A scalar, `null`, or a list of those."
    (.anyOf [.list false scalarOrNull, scalarOrNull])

def sourceFields : Schema :=
  .named "SourceFields" "Source side of a combination rule: one field or a tuple of fields."
    (.anyOf [.string, .list false .string])

def condition : Schema :=
  .named "ConditionSpec"
    ("One condition of a combination rule: when the source equals `when`, " ++
      "the target must be one of `allow`.")
    (.record true [("allow", scalarList), ("when", scalarList)])

def combinationParts : Schema :=
  .named "FieldCombinationSpec" "Explicit form of a combination rule."
    (.record true [("conditions", .list false condition), ("source", sourceFields),
      ("target", .string)])

def combination : Schema :=
  .named "FieldCombinationEntry"
    ("A `field_combinations` entry.\n\nThe pair form `[\x7b\"dept\": \"bonus\"\x7d, " ++
      "\x7b\"HR\": [100, 200]\x7d]` writes composite source keys as `\"(a, b)\"` " ++
      "and composite condition keys as `\"(x, y)\"`.")
    (.anyOf [.pair (.map false .string) (.map false scalarList), combinationParts])

/-- The members stand in ascending order of their names. -/
def config : Schema :=
  .described
    ("Typed view of the built-in configuration keys, used to document the configuration surface " ++
      "as JSON Schema.")
    (.record false
      [(combinationsName,
          .described "Conditional value-combination rules." (.list true combination)),
        (formulasName, .described "Boolean expressions applied in order." (.list true .string)),
        (nullGroupsName, .described "Null-propagation rules." (.map true nullRule))])

end Schema

def configSchema : Json :=
  Schema.config.document "BuiltinConstraintConfig"

def Violation.warning (violation : Violation) : Warning :=
  ⟨"schema_violation", "config", pointer violation.path, violation.message⟩

def schemaLog (json : Json) : WarningLog :=
  WarningLog.empty.recordAll ((Schema.config.violations [] json).map Violation.warning)

end TableSieve
