import TableSieve.Json.Basic

/-!
The tables of a TOML document while it is read. A table is defined by one header, implied by headers
of tables inside it, or made by a dotted key. A header may define a table that is implied so far, a
dotted key may extend only tables made by dotted keys, and nothing is defined twice.
-/

namespace TableSieve.Toml

inductive Origin
  | defined
  | implied
  | dotted
  deriving DecidableEq

/-- A member of a table: a closed value, a table, or a list of tables. -/
inductive Node
  | value (json : Json)
  | table (origin : Origin) (members : List (String × Node))
  | tables (items : List (List (String × Node)))

abbrev Members := NameMap Node

def alter? (name : String) (change : Option Node → Option Node) : Members → Option Members
  | [] => (change none).map fun node => [(name, node)]
  | (other, node) :: rest =>
    if name < other then (change none).map fun fresh => (name, fresh) :: (other, node) :: rest
    else if name = other then (change (some node)).map fun changed => (other, changed) :: rest
    else (alter? name change rest).map ((other, node) :: ·)

def alterLast? (change : Members → Option Members) (items : List Members) : Option (List Members) :=
  match items.getLast? with
  | some last => (change last).map fun changed => items.dropLast ++ [changed]
  | none => none

/-- Changes the table at a path of headers. A list of tables stands for its last one, and tables
that are not there yet are implied. -/
def within? (change : Members → Option Members) : List String → Members → Option Members
  | [], members => change members
  | name :: path, members =>
    alter? name (fun present =>
      match present with
      | none => (within? change path []).map (.table .implied)
      | some (.table origin inner) => (within? change path inner).map (.table origin)
      | some (.tables items) => (alterLast? (within? change path) items).map .tables
      | some (.value _) => none) members

def add? (name : String) (json : Json) : Members → Option Members :=
  alter? name fun present => if present.isNone then some (.value json) else none

/-- Puts a value at a dotted key. The table that takes it must be made by dotted keys or, for a key
of one part, be the table at hand, which `open` says. -/
def assign? (json : Json) (isOpen : Bool) : List String → Members → Option Members
  | [], _ => none
  | [name], members => if isOpen then add? name json members else none
  | part :: next :: path, members =>
    alter? part (fun present =>
      match present with
      | none => (assign? json true (next :: path) []).map (.table .dotted)
      | some (.table .dotted inner) =>
        (assign? json true (next :: path) inner).map (.table .dotted)
      | some (.table .implied inner) =>
        (assign? json false (next :: path) inner).map (.table .implied)
      | some (.table .defined _) => none
      | some (.tables items) =>
        (alterLast? (assign? json false (next :: path)) items).map .tables
      | some (.value _) => none) members

def define? (name : String) : Members → Option Members :=
  alter? name fun present =>
    match present with
    | none => some (.table .defined [])
    | some (.table .implied members) => some (.table .defined members)
    | some _ => none

def append? (name : String) : Members → Option Members :=
  alter? name fun present =>
    match present with
    | none => some (.tables [[]])
    | some (.tables items) => some (.tables (items ++ [[]]))
    | some _ => none

mutual

def Node.json : Node → Json
  | .value json => json
  | .table _ members => .object (membersJson members)
  | .tables items => .array (tablesJson items)

def membersJson : List (String × Node) → List (String × Json)
  | [] => []
  | (name, node) :: rest => (name, node.json) :: membersJson rest

def tablesJson : List (List (String × Node)) → List Json
  | [] => []
  | members :: rest => .object (membersJson members) :: tablesJson rest

end

end TableSieve.Toml
