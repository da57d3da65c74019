import TableSieve.Names
import TableSieve.Number.Reading

/-!
Options of a command line and the values given to them. An option has a long name and may have a
letter; it is a flag, asks for help or the version, or takes one value, which is checked when the
option ends. No option may be given twice.
-/

namespace TableSieve.CommandLine

open TableSieve.Number

inductive UsageError
  | unknownArgument
  | unknownCommand
  | noValue
  | badValue
  | unexpectedValue
  | repeated
  | required
  | noCommand
  | nothingGiven
  | helpAsked
  | versionAsked
  deriving DecidableEq

/-- What an option takes; numbers are less than the bound. -/
inductive OptionKind
  | flag
  | help
  | version
  | path
  | unsigned (bound : Nat)
  | signed (bound : Nat)
  | float
  deriving DecidableEq

def OptionKind.takesValue : OptionKind → Bool
  | .flag | .help | .version => false
  | .path | .unsigned _ | .signed _ | .float => true

structure OptionSpec where
  name : String
  letter : Option Char
  kind : OptionKind
  deriving DecidableEq

inductive Value
  | on
  | path (text : String)
  | number (value : Nat)
  | float (value : Float)
  deriving DecidableEq

/-- A number with no sign but a plus. -/
def readUnsigned? : List Char → Option Nat
  | '+' :: rest => readNat? rest
  | chars => readNat? chars

def below? (bound value : Nat) : Option Nat :=
  if value < bound then some value else none

def orBadValue {α : Type} (wrap : α → Value) : Option α → Except UsageError Value
  | some value => .ok (wrap value)
  | none => .error .badValue

def readValue (kind : OptionKind) (text : String) : Except UsageError Value :=
  match kind with
  | .flag | .help | .version => .error .unexpectedValue
  | .path => if text.isEmpty then .error .noValue else .ok (.path text)
  | .unsigned bound => orBadValue .number ((readUnsigned? text.toList).bind (below? bound))
  | .signed bound =>
    orBadValue .number ((readInt? text.toList).bind fun value =>
      if 0 ≤ value then below? bound value.toNat else none)
  | .float => orBadValue .float (readFloat? text.toList)

structure Given where
  values : NameMap Value
  deriving DecidableEq

namespace Given

def empty : Given :=
  ⟨[]⟩

def isEmpty (given : Given) : Bool :=
  given.values.isEmpty

def has (given : Given) (name : String) : Bool :=
  (given.values.get? name).isSome

def path? (given : Given) (name : String) : Option String :=
  match given.values.get? name with
  | some (.path text) => some text
  | _ => none

def number? (given : Given) (name : String) : Option Nat :=
  match given.values.get? name with
  | some (.number value) => some value
  | _ => none

def float? (given : Given) (name : String) : Option Float :=
  match given.values.get? name with
  | some (.float value) => some value
  | _ => none

def add (given : Given) (option : OptionSpec) (text : Option String) : Except UsageError Given := do
  match option.kind, text with
  | .help, _ => .error .helpAsked
  | .version, _ => .error .versionAsked
  | .flag, _ =>
    if given.has option.name then .error .repeated
    else .ok ⟨given.values.insert option.name .on⟩
  | _, none => .error .noValue
  | kind, some text =>
    if given.has option.name then .error .repeated
    else .ok ⟨given.values.insert option.name (← readValue kind text)⟩

end Given

end TableSieve.CommandLine
