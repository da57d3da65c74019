import TableSieve.Json.Writer
import TableSieve.Number.Binary64
import TableSieve.Schema.Basic

/-!
Checking a JSON value against a schema. A value that has the wrong type, or fits none of several
alternatives, is one violation however much is wrong inside it; otherwise the violations within its
members and items are listed in order. A violation knows the path that leads to its value.
-/

namespace TableSieve

open TableSieve.Number

abbrev JsonPath := List String

inductive ViolationCause
  | wrongType (types : List SchemaType)
  | noAlternative
  | tooFewItems (limit : Nat)
  | tooManyItems (limit : Nat)
  | missingMember (name : String)
  deriving DecidableEq

structure Violation where
  path : JsonPath
  found : Json
  cause : ViolationCause

namespace Json

def hasType (json : Json) (type : SchemaType) : Bool :=
  match type, json with
  | .null, .null => true
  | .boolean, .bool _ => true
  | .integer, .int _ => true
  | .integer, .float value => (wholeValue? value).isSome
  | .number, .int _ => true
  | .number, .float _ => true
  | .string, .text _ => true
  | .array, .array _ => true
  | .object, .object _ => true
  | _, _ => false

end Json

namespace Schema

def typeViolation (path : JsonPath) (found : Json) (type : SchemaType) (orNull : Bool) :
    List Violation :=
  [⟨path, found, .wrongType (if orNull then [type, .null] else [type])⟩]

def itemViolations (check : JsonPath → Json → List Violation) (path : JsonPath) (index : Nat) :
    List Json → List Violation
  | [] => []
  | item :: rest =>
    check (path ++ [natText index]) item ++ itemViolations check path (index + 1) rest

def memberViolations (check : JsonPath → Json → List Violation) (path : JsonPath)
    (members : List (String × Json)) : List Violation :=
  members.flatMap fun entry => check (path ++ [entry.1]) entry.2

def pairViolations (first second : JsonPath → Json → List Violation) (path : JsonPath)
    (items : List Json) : List Violation :=
  let size :=
    if items.length < 2 then [⟨path, .array items, .tooFewItems 2⟩]
    else if 2 < items.length then [⟨path, .array items, .tooManyItems 2⟩]
    else []
  size ++ itemViolations first path 0 (items.take 1) ++
    itemViolations second path 1 ((items.drop 1).take 1)

def nullViolations (path : JsonPath) (type : SchemaType) (orNull : Bool) : List Violation :=
  if orNull then [] else typeViolation path .null type orNull

mutual

def violations : Schema → JsonPath → Json → List Violation
  | .scalar type _, path, json =>
    if json.hasType type then [] else typeViolation path json type false
  | .list orNull items, path, json =>
    match json with
    | .array values => itemViolations items.violations path 0 values
    | .null => nullViolations path .array orNull
    | other => typeViolation path other .array orNull
  | .pair first second, path, json =>
    match json with
    | .array values => pairViolations first.violations second.violations path values
    | other => typeViolation path other .array false
  | .map orNull values, path, json =>
    match json with
    | .object members => memberViolations values.violations path members
    | .null => nullViolations path .object orNull
    | other => typeViolation path other .object orNull
  | .record complete members, path, json =>
    match json with
    | .object present => recordViolations complete present path members
    | other => typeViolation path other .object false
  | .anyOf alternatives, path, json =>
    if fitsAny alternatives path json then [] else [⟨path, json, .noAlternative⟩]
  | .described _ schema, path, json => schema.violations path json
  | .named _ _ schema, path, json => schema.violations path json

def recordViolations (complete : Bool) (present : NameMap Json) (path : JsonPath) :
    List (String × Schema) → List Violation
  | [] => []
  | (name, schema) :: rest =>
    let here := match present.get? name with
      | some value => schema.violations (path ++ [name]) value
      | none => if complete then [⟨path, .object present, .missingMember name⟩] else []
    here ++ recordViolations complete present path rest

def fitsAny : List Schema → JsonPath → Json → Bool
  | [], _, _ => false
  | schema :: rest, path, json =>
    (schema.violations path json).isEmpty || fitsAny rest path json

end

end Schema

namespace Violation

def pointerChar (c : Char) : List Char :=
  if c = '~' then ['~', '0'] else if c = '/' then ['~', '1'] else [c]

def pointer (path : JsonPath) : String :=
  if path.isEmpty then "/"
  else String.ofList (path.flatMap fun part => '/' :: part.toList.flatMap pointerChar)

def typeNames (types : List SchemaType) : String :=
  let names := (sortNames (types.map SchemaType.name)).map Json.quoted
  (if types.length = 1 then "type " else "types ") ++ ", ".intercalate names

def message (violation : Violation) : String :=
  let found := violation.found.compact
  match violation.cause with
  | .wrongType types => s!"{found} is not of {typeNames types}"
  | .noAlternative =>
    s!"{found} is not valid under any of the schemas listed in the 'anyOf' keyword"
  | .tooFewItems limit => s!"{found} has less than {natText limit} items"
  | .tooManyItems limit => s!"{found} has more than {natText limit} items"
  | .missingMember name => s!"{Json.quoted name} is a required property"

end Violation

end TableSieve
