import TableSieve.Config.Error
import TableSieve.Json.Reader
import TableSieve.Toml.Reader

/-!
Configurations: a value for each constraint kind, in ascending order of the kinds' names. Which
kinds there are and what their values mean is decided where the constraints are built.
-/

namespace TableSieve

structure Config where
  values : NameMap Json

namespace Config

def kinds (config : Config) : List String :=
  config.values.names

def get? (config : Config) (kind : String) : Option Json :=
  config.values.get? kind

def insert (config : Config) (kind : String) (value : Json) : Config :=
  ⟨config.values.insert kind value⟩

def isEmpty (config : Config) : Bool :=
  config.values.isEmpty

def json (config : Config) : Json :=
  .object config.values

def ofJson : Json → Except ConfigError Config
  | .object members => .ok ⟨members⟩
  | _ => .error .badJson

def readJson (text : String) : Except ConfigError Config :=
  match Json.read? text with
  | some json => ofJson json
  | none => .error .badJson

def readToml (text : String) : Except ConfigError Config :=
  match Toml.read? text with
  | some json => ofJson json
  | none => .error .badToml

end Config

end TableSieve
