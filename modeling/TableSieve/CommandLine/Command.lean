import TableSieve.CommandLine.Arguments
import TableSieve.Resample.Options

/-!
The commands of the program and their options. Options about logging may stand before a command and
after it; where one stands in both places, the latter counts.
-/

namespace TableSieve.CommandLine

open TableSieve.Number

inductive Command
  | check (config : String) (table : Option String)
  | filter (config input output : String) (diagnostics : Option String)
  | resample (config input output : String) (rows : Nat) (options : ResampleOptions)
      (report : Option String)
  | schema
  deriving DecidableEq

structure Invocation where
  logFile : Option String
  logAsJson : Bool
  command : Command
  deriving DecidableEq

def helpOption : OptionSpec := ⟨"help", some 'h', .help⟩
def versionOption : OptionSpec := ⟨"version", some 'V', .version⟩
def logJsonOption : OptionSpec := ⟨"log-json", none, .flag⟩
def logFileOption : OptionSpec := ⟨"log-file", none, .path⟩
def configOption : OptionSpec := ⟨"config", some 'c', .path⟩
def tableOption : OptionSpec := ⟨"csv", none, .path⟩
def inputOption : OptionSpec := ⟨"input", some 'i', .path⟩
def outputOption : OptionSpec := ⟨"output", some 'o', .path⟩
def diagnosticsOption : OptionSpec := ⟨"diagnostics", none, .path⟩
def rowsOption : OptionSpec := ⟨"rows", some 'n', .unsigned (twoTo 64)⟩
def maxTrialsOption : OptionSpec := ⟨"max-trials", none, .signed (twoTo 32)⟩
def ratioOption : OptionSpec := ⟨"sampling-ratio", none, .float⟩
def progressOption : OptionSpec := ⟨"progress-every", none, .signed (twoTo 32)⟩
def seedOption : OptionSpec := ⟨"seed", none, .unsigned (twoTo 64)⟩
def reportOption : OptionSpec := ⟨"report", none, .path⟩

def sharedOptions : List OptionSpec :=
  [logJsonOption, logFileOption, helpOption]

def requirePath (given : Given) (option : OptionSpec) : Except UsageError String :=
  match given.path? option.name with
  | some text => .ok text
  | none => .error .required

def requireNumber (given : Given) (option : OptionSpec) : Except UsageError Nat :=
  match given.number? option.name with
  | some value => .ok value
  | none => .error .required

def checkCommand (given : Given) : Except UsageError Command := do
  .ok (.check (← requirePath given configOption) (given.path? tableOption.name))

def filterCommand (given : Given) : Except UsageError Command := do
  .ok (.filter (← requirePath given configOption) (← requirePath given inputOption)
    (← requirePath given outputOption) (given.path? diagnosticsOption.name))

def resampleOptions (given : Given) : ResampleOptions :=
  let default := ResampleOptions.default
  { maxTrials := (given.number? maxTrialsOption.name).getD default.maxTrials
    ratio := (given.float? ratioOption.name).getD default.ratio
    progressEvery := (given.number? progressOption.name).getD default.progressEvery
    seed := ((given.number? seedOption.name).map UInt64.ofNat).getD default.seed }

def resampleCommand (given : Given) : Except UsageError Command := do
  .ok (.resample (← requirePath given configOption) (← requirePath given inputOption)
    (← requirePath given outputOption) (← requireNumber given rowsOption)
    (resampleOptions given) (given.path? reportOption.name))

structure CommandSpec where
  name : String
  options : List OptionSpec
  build : Given → Except UsageError Command

def commandSpecs : List CommandSpec := [
  ⟨"check", [configOption, tableOption], checkCommand⟩,
  ⟨"filter", [configOption, inputOption, outputOption, diagnosticsOption], filterCommand⟩,
  ⟨"resample",
    [configOption, inputOption, outputOption, rowsOption, maxTrialsOption, ratioOption,
      progressOption, seedOption, reportOption],
    resampleCommand⟩,
  ⟨"schema", [], fun _ => .ok .schema⟩]

def helpCommand : String := "help"

def commandNames : List String :=
  commandSpecs.map CommandSpec.name ++ [helpCommand]

def askHelp : List String → UsageError
  | [] => .helpAsked
  | [name] => if commandNames.contains name then .helpAsked else .unknownCommand
  | _ => .unknownCommand

def readCommand (spec : CommandSpec) (arguments : List String) :
    Except UsageError (Given × Command) := do
  let vocabulary : Vocabulary := ⟨spec.options ++ sharedOptions, []⟩
  let (reading, _) ← readArguments vocabulary .empty arguments
  let settled ← reading.settle
  .ok (settled.given, ← spec.build settled.given)

def withoutCommand (given : Given) : UsageError :=
  if given.isEmpty then .nothingGiven else .noCommand

def parse (arguments : List String) : Except UsageError Invocation := do
  let vocabulary : Vocabulary := ⟨versionOption :: sharedOptions, commandNames⟩
  match ← readArguments vocabulary .empty arguments with
  | (reading, none) => do
    let settled ← reading.settle
    .error (withoutCommand settled.given)
  | (reading, some (name, rest)) =>
    match commandSpecs.find? (·.name = name) with
    | none => .error (askHelp rest)
    | some spec => do
      let (inner, command) ← readCommand spec rest
      let settled ← reading.settle
      let outer := settled.given
      .ok {
        logFile := (inner.path? logFileOption.name).or (outer.path? logFileOption.name)
        logAsJson := inner.has logJsonOption.name || outer.has logJsonOption.name
        command }

end TableSieve.CommandLine
