import TableSieve.Constraint.Basic

/-!
Pipelines: constraints that are applied one after another, each to the table that the one before it
left, together with the warnings raised when they were built. The constraints are of the built-in
kinds, or of any type that can do what a pipeline asks for.
-/

namespace TableSieve

/-- What a pipeline asks of its constraints. The fields are those that are read or written, in the
order of names; unless there is a check of its own, all of them must be there. -/
class Constraining (Made : Type) where
  kindName : Made → String
  fields : Made → List String
  validate (made : Made) (table : Table) : Except ConfigError Unit :=
    table.checkFields (kindName made) (fields made)
  apply : Made → Table → Filtering

instance : Constraining Constraint where
  kindName constraint := constraint.kind.name
  fields := Constraint.fields
  validate := Constraint.validate
  apply := Constraint.apply

instance {Left Right : Type} [Constraining Left] [Constraining Right] :
    Constraining (Left ⊕ Right) where
  kindName := Sum.elim Constraining.kindName Constraining.kindName
  fields := Sum.elim Constraining.fields Constraining.fields
  validate := Sum.elim Constraining.validate Constraining.validate
  apply := Sum.elim Constraining.apply Constraining.apply

structure Pipeline (Made : Type := Constraint) where
  constraints : List Made
  buildLog : WarningLog
  deriving DecidableEq

namespace Pipeline

variable {Made : Type}

def size (pipeline : Pipeline Made) : Nat :=
  pipeline.constraints.length

def isEmpty (pipeline : Pipeline Made) : Bool :=
  pipeline.constraints.isEmpty

variable [Constraining Made]

def kindNames (pipeline : Pipeline Made) : List String :=
  pipeline.constraints.map Constraining.kindName

def fields (pipeline : Pipeline Made) : List String :=
  sortNames (pipeline.constraints.flatMap Constraining.fields)

def validate (pipeline : Pipeline Made) (table : Table) : Except ConfigError Unit :=
  pipeline.constraints.forM fun constraint => Constraining.validate constraint table

def apply (pipeline : Pipeline Made) (table : Table) : Filtering :=
  Filtering.steps Constraining.apply pipeline.constraints table

end Pipeline

end TableSieve
