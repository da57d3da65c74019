import TableSieve.Names

/-!
JSON values. A number is a whole number of 64 bits, signed or not, or a float. An object is a list
of members: reading one puts them in ascending order of their names, while a document written by
this library keeps the order in which its members were listed.
-/

namespace TableSieve

inductive Json
  | null
  | bool (value : Bool)
  | int (value : Int)
  | float (value : Float)
  | text (value : String)
  | array (items : List Json)
  | object (members : List (String × Json))

namespace Json

def text? : Json → Option String
  | .text value => some value
  | _ => none

def array? : Json → Option (List Json)
  | .array items => some items
  | _ => none

def object? : Json → Option (NameMap Json)
  | .object members => some members
  | _ => none

def texts (values : List String) : Json :=
  .array (values.map .text)

def nat (value : Nat) : Json :=
  .int value

def member? (json : Json) (name : String) : Option Json :=
  json.object?.bind (NameMap.get? · name)

end Json

end TableSieve
