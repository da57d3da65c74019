import TableSieve.Json.Basic

/-!
Schemas of JSON values, and their published form. A named schema is published once, among the
definitions of the document, and is referred to wherever it is used.
-/

namespace TableSieve

inductive SchemaType
  | null
  | boolean
  | integer
  | number
  | string
  | array
  | object
  deriving DecidableEq

def SchemaType.name : SchemaType → String
  | .null => "null"
  | .boolean => "boolean"
  | .integer => "integer"
  | .number => "number"
  | .string => "string"
  | .array => "array"
  | .object => "object"

/-- Lists and maps may admit null as well. A record may have members that it does not name, and has
either all or any of those that it names. -/
inductive Schema
  | scalar (type : SchemaType) (format : Option String)
  | list (orNull : Bool) (items : Schema)
  | pair (first second : Schema)
  | map (orNull : Bool) (values : Schema)
  | record (complete : Bool) (members : List (String × Schema))
  | anyOf (alternatives : List Schema)
  | described (description : String) (schema : Schema)
  | named (name description : String) (schema : Schema)

namespace Schema

def string : Schema :=
  .scalar .string none

def typeEntry (type : SchemaType) (orNull : Bool) : String × Json :=
  ("type", if orNull then Json.texts [type.name, SchemaType.null.name] else .text type.name)

def formatEntry (format : Option String) : List (String × Json) :=
  match format with
  | some format => [("format", .text format)]
  | none => []

def requiredEntry (complete : Bool) (names : List String) : List (String × Json) :=
  if complete then [("required", Json.texts names)] else []

mutual

def entries : Schema → List (String × Json)
  | .scalar type format => typeEntry type false :: formatEntry format
  | .list orNull items => [typeEntry .array orNull, ("items", .object items.entries)]
  | .pair first second =>
    [typeEntry .array false, ("items", .array [.object first.entries, .object second.entries]),
      ("maxItems", .nat 2), ("minItems", .nat 2)]
  | .map orNull values =>
    [typeEntry .object orNull, ("additionalProperties", .object values.entries)]
  | .record complete members =>
    typeEntry .object false :: (requiredEntry complete (members.map (·.1)) ++
      [("properties", .object (memberEntries members))])
  | .anyOf alternatives => [("anyOf", .array (alternativeEntries alternatives))]
  | .described description schema => ("description", .text description) :: schema.entries
  | .named name _ _ => [("$ref", .text ("#/definitions/" ++ name))]

def memberEntries : List (String × Schema) → List (String × Json)
  | [] => []
  | (name, schema) :: rest => (name, .object schema.entries) :: memberEntries rest

def alternativeEntries : List Schema → List Json
  | [] => []
  | schema :: rest => .object schema.entries :: alternativeEntries rest

end

mutual

def namedWithin : Schema → List (String × Json)
  | .scalar _ _ => []
  | .list _ items => items.namedWithin
  | .pair first second => first.namedWithin ++ second.namedWithin
  | .map _ values => values.namedWithin
  | .record _ members => namedInMembers members
  | .anyOf alternatives => namedInAlternatives alternatives
  | .described _ schema => schema.namedWithin
  | .named name description schema =>
    (name, .object (("description", .text description) :: schema.entries)) :: schema.namedWithin

def namedInMembers : List (String × Schema) → List (String × Json)
  | [] => []
  | (_, schema) :: rest => schema.namedWithin ++ namedInMembers rest

def namedInAlternatives : List Schema → List (String × Json)
  | [] => []
  | schema :: rest => schema.namedWithin ++ namedInAlternatives rest

end

def definitions (schema : Schema) : NameMap Json :=
  .ofEntries schema.namedWithin

def document (schema : Schema) (title : String) : Json :=
  .object ([("$schema", .text "http://json-schema.org/draft-07/schema#"),
    ("title", .text title)] ++ schema.entries ++
    [("definitions", .object schema.definitions)])

end Schema

end TableSieve
