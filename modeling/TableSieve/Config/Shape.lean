import TableSieve.Config.Error

/-!
The typed forms of the values of the constraint kinds, read from JSON. Reading checks only the shape
of a value: which names, keys and numbers make sense is decided where a constraint is built. A list
of several forms is tried in order, members that a form does not name are ignored, and a form with
named members may also be written as the list of its members.
-/

namespace TableSieve

open TableSieve.Number

inductive OneOrMany (α : Type)
  | one (item : α)
  | many (items : List α)
  deriving DecidableEq

def OneOrMany.toList {α : Type} : OneOrMany α → List α
  | .one item => [item]
  | .many items => items

inductive Scalar
  | bool (value : Bool)
  | int (value : Int64)
  | float (value : Float)
  | text (value : String)
  deriving DecidableEq

abbrev ScalarList := OneOrMany (Option Scalar)

inductive NullRuleShape
  | action (name : String)
  | actions (related : NameMap (OneOrMany String))
  deriving DecidableEq

structure ConditionShape where
  when : ScalarList
  allow : ScalarList
  deriving DecidableEq

inductive CombinationShape
  | pair (fields : NameMap String) (conditions : NameMap ScalarList)
  | parts (source : OneOrMany String) (target : String) (conditions : List ConditionShape)
  deriving DecidableEq

namespace Json

def mapOf? {α : Type} (shape : Json → Option α) : Json → Option (NameMap α)
  | .object members => members.mapM fun entry => (shape entry.2).map fun value => (entry.1, value)
  | _ => none

def listOf? {α : Type} (shape : Json → Option α) : Json → Option (List α)
  | .array items => items.mapM shape
  | _ => none

def oneOrMany? {α : Type} (shape : Json → Option α) (json : Json) : Option (OneOrMany α) :=
  match json with
  | .array items => (items.mapM shape).map .many
  | item => (shape item).map .one

def texts? (json : Json) : Option (OneOrMany String) :=
  json.oneOrMany? text?

/-- The values of the named members, or the items of a list that has one for each name. -/
def parts? (names : List String) : Json → Option (List Json)
  | .object members => names.mapM fun name => NameMap.get? members name
  | .array items => if items.length = names.length then some items else none
  | _ => none

/-- Whole numbers beyond 64 bits are floats. -/
def scalar? : Json → Option (Option Scalar)
  | .null => some none
  | .bool value => some (some (.bool value))
  | .int value =>
    match int64? value with
    | some small => some (some (.int small))
    | none => some (some (.float (ofInt value)))
  | .float value => some (some (.float value))
  | .text value => some (some (.text value))
  | .array _ | .object _ => none

def scalars? (json : Json) : Option ScalarList :=
  json.oneOrMany? scalar?

def nullRule? : Json → Option NullRuleShape
  | .text name => some (.action name)
  | json => (json.mapOf? texts?).map .actions

def condition? (json : Json) : Option ConditionShape :=
  match json.parts? ["when", "allow"] with
  | some [when, allow] => do some ⟨← when.scalars?, ← allow.scalars?⟩
  | _ => none

def rulePair? : Json → Option CombinationShape
  | .array [fields, conditions] => do
    some (.pair (← fields.mapOf? text?) (← conditions.mapOf? scalars?))
  | _ => none

def ruleParts? (json : Json) : Option CombinationShape :=
  match json.parts? ["source", "target", "conditions"] with
  | some [source, target, conditions] => do
    some (.parts (← source.texts?) (← target.text?) (← conditions.listOf? condition?))
  | _ => none

def combination? (json : Json) : Option CombinationShape :=
  json.rulePair?.or json.ruleParts?

end Json

def shapesFrom {α : Type} (shape : Json → Option α) (index : Nat) :
    List Json → Except (Nat × Json) (List α)
  | [] => .ok []
  | item :: rest =>
    match shape item with
    | none => .error (index, item)
    | some value => (shapesFrom shape (index + 1) rest).map (value :: ·)

def readNullRules (json : Json) : Except ShapeFault (NameMap NullRuleShape) :=
  match json with
  | .object _ =>
    match json.mapOf? Json.nullRule? with
    | some rules => .ok rules
    | none => .error .badNullRule
  | other => .error (.notAMap other)

def readFormulaTexts (json : Json) : Except ShapeFault (List String) :=
  match json.array? with
  | none => .error .notFormulas
  | some items => (shapesFrom Json.text? 0 items).mapError fun fault => .notText fault.1 fault.2

def readCombinations (json : Json) : Except ShapeFault (List CombinationShape) :=
  match json.array? with
  | none => .error .notRules
  | some items => (shapesFrom Json.combination? 0 items).mapError fun fault => .badRule fault.1

/-! Scalars are shown in messages as JSON. -/

def Scalar.json : Scalar → Json
  | .bool value => .bool value
  | .int value => .int value.toInt
  | .float value => .float value
  | .text value => .text value

def scalarJson : Option Scalar → Json
  | none => .null
  | some scalar => scalar.json

def OneOrMany.json {α : Type} (encode : α → Json) : OneOrMany α → Json
  | .one item => encode item
  | .many items => .array (items.map encode)

end TableSieve
