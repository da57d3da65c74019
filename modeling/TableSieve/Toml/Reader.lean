import TableSieve.Toml.Scalar
import TableSieve.Toml.Table
import TableSieve.Toml.Text

/-!
Reading TOML documents as JSON objects. A document is a list of statements, one on a line: headers,
which say where the values after them go, and assignments. Arrays may span lines and end in a comma,
inline tables may not. Arrays and inline tables nest to a limit.
-/

namespace TableSieve.Toml

abbrev Read (α : Type) := List Char → Option (α × List Char)

def readItems? (item : Read Json) (chars : List Char) : Option (List Json × List Char) :=
  match skipFiller false chars with
  | ']' :: rest => some ([], rest)
  | start =>
    match item start with
    | none => none
    | some (value, rest) =>
      match skipFiller false rest with
      | ']' :: final => some ([value], final)
      | ',' :: more =>
        if more.length < chars.length then
          (readItems? item more).map fun read => (value :: read.1, read.2)
        else none
      | _ => none
termination_by chars.length

def readAssignment? (item : Read Json) : Read (List String × Json) := fun chars => do
  let (path, rest) ← readPath? chars
  match rest with
  | '=' :: more => do
    let (value, final) ← item (skipSpace more)
    some ((path, value), final)
  | _ => none

def readMembers? (item : Read Json) (members : Members) (chars : List Char) :
    Option (Members × List Char) :=
  match readAssignment? item chars with
  | none => none
  | some ((path, value), rest) =>
    match assign? value true path members with
    | none => none
    | some more =>
      match skipSpace rest with
      | '\x7d' :: final => some (more, final)
      | ',' :: next =>
        if next.length < chars.length then readMembers? item more next else none
      | _ => none
termination_by chars.length

def readInline? (item : Read Json) (chars : List Char) : Option (Json × List Char) :=
  match skipSpace chars with
  | '\x7d' :: rest => some (.object [], rest)
  | start => (readMembers? item [] start).map fun read => (.object (membersJson read.1), read.2)

/-- A value; the depth counts the arrays and inline tables that may still be opened. -/
def readValue? : Nat → Read Json
  | _, '"' :: rest => (readString? ('"' :: rest)).map fun read => (.text read.1, read.2)
  | _, '\'' :: rest => (readString? ('\'' :: rest)).map fun read => (.text read.1, read.2)
  | depth + 1, '[' :: rest =>
    (readItems? (readValue? depth) rest).map fun read => (.array read.1, read.2)
  | depth + 1, '\x7b' :: rest => readInline? (readValue? depth) rest
  | _, chars => readScalar? chars

def depthLimit : Nat := 79

inductive Statement
  | header (path : List String)
  | listHeader (path : List String)
  | assignment (path : List String) (value : Json)

def readStatement? : Read Statement
  | '[' :: '[' :: rest => do
    let (path, after) ← readPath? rest
    match after with
    | ']' :: ']' :: final => some (.listHeader path, final)
    | _ => none
  | '[' :: rest => do
    let (path, after) ← readPath? rest
    match after with
    | ']' :: final => some (.header path, final)
    | _ => none
  | chars => (readAssignment? (readValue? depthLimit) chars).map fun read =>
    (.assignment read.1.1 read.1.2, read.2)

def readStatements? (chars : List Char) : Option (List Statement) :=
  match skipFiller false chars with
  | [] => some []
  | start =>
    match readStatement? start with
    | none => none
    | some (statement, rest) =>
      match endLine? rest with
      | none => none
      | some after =>
        if after.length < chars.length then
          (readStatements? after).map (statement :: ·)
        else none
termination_by chars.length

structure Draft where
  members : Members
  path : List String

def atEnd? (change : String → Members → Option Members) (path : List String) (members : Members) :
    Option Members :=
  match path.getLast? with
  | some name => within? (change name) path.dropLast members
  | none => none

def Draft.add? (draft : Draft) : Statement → Option Draft
  | .header path => (atEnd? define? path draft.members).map fun members => ⟨members, path⟩
  | .listHeader path => (atEnd? append? path draft.members).map fun members => ⟨members, path⟩
  | .assignment path value =>
    (within? (assign? value true path) draft.path draft.members).map fun members =>
      ⟨members, draft.path⟩

def dropByteOrderMark : List Char → List Char
  | '\ufeff' :: rest => rest
  | chars => chars

def read? (text : String) : Option Json := do
  let statements ← readStatements? (dropByteOrderMark text.toList)
  let draft ← statements.foldlM Draft.add? ⟨[], []⟩
  some (.object (membersJson draft.members))

end TableSieve.Toml
