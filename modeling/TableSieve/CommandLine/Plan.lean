import TableSieve.CommandLine.Command
import TableSieve.CommandLine.Error
import TableSieve.Config.Loading
import TableSieve.Config.Schema
import TableSieve.Constraint.Registry
import TableSieve.Csv.Writer
import TableSieve.Resample.Report

/-!
What a command does. A command reads the files it needs before it writes or prints anything, so it
is a function from files to a plan: the documents to write, in order, and the text to print.
-/

namespace TableSieve.CommandLine

abbrev Files := String → Except String (List UInt8)

inductive Document
  | table (table : Table)
  | log (log : WarningLog)
  | report (options : ResampleOptions) (outcome : ResampleOutcome)

structure Output where
  path : String
  document : Document

structure Plan where
  outputs : List Output
  printed : String

def notTextReason : String :=
  "stream did not contain valid UTF-8"

def readText (files : Files) (path : String) : Except String String := do
  match Text.decode (← files path) with
  | .ok text => .ok text
  | .error _ => .error notTextReason

def loadPipeline (files : Files) (path : String) : Except CommandError Pipeline := do
  let config ← (Config.load (readText files) path).mapError .config
  match (schemaLog config.json).warnings with
  | [] => (Pipeline.ofConfig config).mapError .config
  | first :: rest => .error (.invalidConfig path (rest.length + 1) first)

def loadTable (files : Files) (path : String) : Except CommandError Table := do
  let bytes ← (files path).mapError .csvFile
  match Csv.readTable bytes with
  | .ok table => .ok table
  | .error (.fault fault) => .error (.csvFault fault)
  | .error (.table error) => .error (.table error)

def output? (path : Option String) (document : Document) : List Output :=
  match path with
  | some path => [⟨path, document⟩]
  | none => []

def bootstrapOf (reference : Table) (seed : UInt64) :
    Except CommandError (Source Random.Generator × Random.Generator) :=
  if reference.isEmpty then .error .emptyReference
  else .ok (bootstrap Random.Generator.numbers columnRoom reference, .ofSeed seed)

def summary (pipeline : Pipeline) : Json :=
  .object [("kinds", Json.texts pipeline.kindNames), ("fields", Json.texts pipeline.fields),
    ("warnings", pipeline.buildLog.warningsJson)]

def planCheck (files : Files) (config : String) (path : Option String) :
    Except CommandError Plan := do
  let pipeline ← loadPipeline files config
  match path with
  | none => .ok ()
  | some path => (pipeline.validate (← loadTable files path)).mapError .config
  .ok ⟨[], (summary pipeline).pretty ++ "\n"⟩

def planFilter (files : Files) (config input output : String) (diagnostics : Option String) :
    Except CommandError Plan := do
  let pipeline ← loadPipeline files config
  let filtering := pipeline.apply (← loadTable files input)
  let passed ← filtering.result.mapError .config
  let log := (WarningLog.empty.merge pipeline.buildLog).recordAll filtering.warnings
  .ok ⟨⟨output, .table passed⟩ :: output? diagnostics (.log log), ""⟩

def planResample (files : Files) (config input output : String) (rows : Nat)
    (options : ResampleOptions) (report : Option String) : Except CommandError Plan := do
  let pipeline ← loadPipeline files config
  let reference ← loadTable files input
  let (source, generator) ← bootstrapOf reference options.seed
  let run := (Resampler.of pipeline options).run Random.sampler source none reference rows generator
  let outcome ← run.result.mapError .resample
  .ok ⟨⟨output, .table outcome.table⟩ :: output? report (.report options outcome), ""⟩

def Command.plan (files : Files) : Command → Except CommandError Plan
  | .check config table => planCheck files config table
  | .filter config input output diagnostics => planFilter files config input output diagnostics
  | .resample config input output rows options report =>
    planResample files config input output rows options report
  | .schema => .ok ⟨[], configSchema.pretty ++ "\n"⟩

def Command.inputs : Command → List String
  | .check config table => config :: table.toList
  | .filter config input _ _ => [config, input]
  | .resample config input _ _ _ _ => [config, input]
  | .schema => []

structure Stamp where
  runName : String
  milliseconds : Nat

def Document.text (stamp : Stamp) : Document → String
  | .table contents => Csv.tableText contents
  | .log raised => raised.json.pretty
  | .report options outcome =>
    (ResampleReport.json ⟨stamp.runName, stamp.milliseconds, options, outcome⟩).pretty

def Document.unwritable (reason : String) : Document → CommandError
  | .table _ => .csvFile reason
  | .log _ | .report _ _ => .file reason

end TableSieve.CommandLine
