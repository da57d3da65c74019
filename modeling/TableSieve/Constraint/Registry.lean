import TableSieve.Config.Basic
import TableSieve.Constraint.Pipeline

/-!
Registries: how to build a constraint of each kind, in the order in which a pipeline applies them. A
configured kind that is not registered is passed over with a warning. What builders make and how
they fail is left open, so that kinds can be added to those built in.
-/

namespace TableSieve

abbrev Builder (Error : Type := ConfigError) (Made : Type := Constraint) :=
  Json → Except Error Made

def Builder.into {Error Made Wider : Type} (box : Made → Wider) (builder : Builder Error Made) :
    Builder Error Wider :=
  fun value => (builder value).map box

structure Registry (Error : Type := ConfigError) (Made : Type := Constraint) where
  builders : List (String × Builder Error Made)

namespace Registry

variable {Error Made : Type}

def empty : Registry Error Made :=
  ⟨[]⟩

/-- A known name keeps its place and gets the new builder; a new one is put last. -/
def registerIn (name : String) (builder : Builder Error Made) :
    List (String × Builder Error Made) → List (String × Builder Error Made)
  | [] => [(name, builder)]
  | entry :: rest =>
    if entry.1 = name then (name, builder) :: rest else entry :: registerIn name builder rest

def register (registry : Registry Error Made) (name : String) (builder : Builder Error Made) :
    Registry Error Made :=
  ⟨registerIn name builder registry.builders⟩

def builtIn : Registry :=
  ConstraintKind.all.foldl (fun registry kind => registry.register kind.name kind.build) empty

def widen {Wider : Type} (registry : Registry Error Made) (box : Made → Wider) :
    Registry Error Wider :=
  ⟨registry.builders.map (Prod.map id (Builder.into box))⟩

def names (registry : Registry Error Made) : List String :=
  registry.builders.map (·.1)

def contains (registry : Registry Error Made) (name : String) : Bool :=
  registry.names.contains name

def unknownKind (registry : Registry Error Made) (name : String) : Warning :=
  let known := ", ".intercalate registry.names
  ⟨"unknown_constraint_kind", name, name,
    s!"'{name}' is not a registered constraint kind (known: {known})"⟩

def unknownKinds (registry : Registry Error Made) (config : Config) : List Warning :=
  (config.kinds.filter fun name => !registry.contains name).map registry.unknownKind

def buildAll (config : Config) :
    List (String × Builder Error Made) → Except Error (List Made)
  | [] => .ok []
  | (name, builder) :: rest =>
    match config.get? name with
    | none => buildAll config rest
    | some value => do
      let constraint ← builder value
      (buildAll config rest).map (constraint :: ·)

def build (registry : Registry Error Made) (config : Config) : Except Error (Pipeline Made) :=
  (buildAll config registry.builders).map fun constraints =>
    ⟨constraints, WarningLog.empty.recordAll (registry.unknownKinds config)⟩

end Registry

def Pipeline.ofConfig (config : Config) : Except ConfigError Pipeline :=
  Registry.builtIn.build config

end TableSieve
