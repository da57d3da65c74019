import TableSieve.Resample.Run

/-!
Reports on resampling runs, for a reader who did not see the run: what was asked for, what came of
it, and every warning.
-/

namespace TableSieve

def ResampleStatus.name : ResampleStatus → String
  | .done => "done"
  | .aborted => "aborted"

/-- The name of a run and the time that it took come from outside. -/
structure ResampleReport where
  runName : String
  milliseconds : Nat
  options : ResampleOptions
  outcome : ResampleOutcome

def ResampleReport.json (report : ResampleReport) : Json :=
  let outcome := report.outcome
  let options := report.options
  .object [("run_id", .text report.runName), ("status", .text outcome.status.name),
    ("rows_requested", .nat outcome.target), ("rows_generated", .nat outcome.table.size),
    ("trials", .nat outcome.trials), ("max_trials", .nat options.maxTrials),
    ("sampling_ratio", .float options.ratio), ("seed", .nat options.seed.toNat),
    ("duration_ms", .nat report.milliseconds), ("warnings_by_code", outcome.log.countsJson),
    ("warnings", outcome.log.warningsJson)]

end TableSieve
