import TableSieve.CommandLine.Plan

/-!
The program: reads the arguments and the files, and carries out the plan of the command. A log file
is opened, but nothing is logged.
-/

open TableSieve.CommandLine

namespace TableSieve.Main

def numbered (code : UInt32) (text : String) : String :=
  s!"{text} (os error {code})"

def missingText : String := "No such file or directory"

def reason (error : IO.Error) : String :=
  match error with
  | .noFileOrDirectory _ code _ => numbered code missingText
  | .permissionDenied _ code _ => numbered code "Permission denied"
  | .inappropriateType _ code _ => numbered code "Is a directory"
  | other => toString other

def attempt {α : Type} (action : IO α) : IO (Except String α) := do
  try
    return .ok (← action)
  catch error =>
    return .error (reason error)

def readFile (path : String) : IO (Except String (List UInt8)) :=
  attempt do return (← IO.FS.readBinFile path).toList

def readFiles (paths : List String) : IO Files := do
  let contents ← paths.mapM readFile
  return fun path => ((paths.zip contents).lookup path).getD (.error (numbered 2 missingText))

def randomName : IO String := do
  let digits ← (List.range 32).mapM fun position => do
    let digit ← IO.rand 0 15
    return Json.hexDigit
      (if position = 12 then 4 else if position = 16 then 8 + digit % 4 else digit)
  let group (start count : Nat) : String := String.ofList ((digits.drop start).take count)
  return "-".intercalate [group 0 8, group 8 4, group 12 4, group 16 4, group 20 12]

/-- Opens the log file, so that one that cannot be written ends the program at once. -/
def openLog (file : Option String) : IO (Except CommandError Unit) := do
  match file with
  | none => return .ok ()
  | some path =>
    let opened ← attempt (IO.FS.withFile path .append fun _ => return ())
    return opened.mapError .file

def writeOutputs (stamp : Stamp) : List Output → IO (Except CommandError Unit)
  | [] => return .ok ()
  | output :: rest => do
    match ← attempt (IO.FS.writeFile output.path (output.document.text stamp)) with
    | .error reason => return .error (output.document.unwritable reason)
    | .ok () => writeOutputs stamp rest

def perform (command : Command) : IO (Except CommandError Unit) := do
  let started ← IO.monoMsNow
  let files ← readFiles command.inputs
  match command.plan files with
  | .error error => return .error error
  | .ok plan =>
    let stamp : Stamp := ⟨← randomName, (← IO.monoMsNow) - started⟩
    match ← writeOutputs stamp plan.outputs with
    | .error error => return .error error
    | .ok () =>
      IO.print plan.printed
      return .ok ()

def invoke (invocation : Invocation) : IO UInt32 := do
  let result ← match ← openLog invocation.logFile with
    | .error error => pure (.error error)
    | .ok () => perform invocation.command
  match result with
  | .ok () => return 0
  | .error (.resample .overflow) =>
    IO.eprintln ResampleError.overflow.message
    return 101
  | .error error =>
    IO.eprintln s!"Error: {error.message}"
    return 1

def usage : String :=
  "Usage: tablesieve [--log-json] [--log-file PATH] <check|filter|resample|schema> [OPTIONS]"

def refuse (error : UsageError) : IO UInt32 := do
  match error with
  | .helpAsked =>
    IO.println usage
    return 0
  | .versionAsked =>
    IO.println "tablesieve"
    return 0
  | _ =>
    IO.eprintln usage
    return 2

end TableSieve.Main

def main (arguments : List String) : IO UInt32 :=
  match parse arguments with
  | .ok invocation => TableSieve.Main.invoke invocation
  | .error error => TableSieve.Main.refuse error
