import TableSieve.Constraint.Pipeline
import TableSieve.Resample.Options
import TableSieve.Resample.Source
import TableSieve.Table.Sampling

/-!
Resampling: rows are drawn from a source and filtered by a pipeline, trial after trial, until enough
different rows have passed or the trials are used up. Enough rows are cut down to exactly as many as
were asked for, chosen at random; too few are given as they are, with a warning. What is logged in
the course of a run and the time that it takes are left out.
-/

namespace TableSieve

open TableSieve.Number TableSieve.Random

/-- The errors of a run. The last is none that the program returns: it stops there. -/
inductive ResampleError
  | noTarget
  | noData
  | badRatio (ratio : Float)
  | noTrials
  | source (reason : String)
  | constraint (error : ConfigError)
  | table (error : TableError)
  | overflow

def DrawFault.error : DrawFault → ResampleError
  | .refused reason => .source reason
  | .overflow => .overflow

def ResampleError.message : ResampleError → String
  | .noTarget => "invalid input: target_rows must be greater than zero"
  | .noData => "invalid input: reference data has no rows"
  | .badRatio ratio =>
    "invalid input: sampling_ratio must be a positive number, found " ++ Layout.plain.text ratio
  | .noTrials => "invalid input: max_trials must be greater than zero"
  | .source reason => "data source failed: " ++ reason
  | .constraint error => "constraint error: " ++ error.message
  | .table error => "table error: " ++ error.message
  | .overflow => "capacity overflow"

inductive ResampleStatus
  | done
  | aborted
  deriving DecidableEq

structure ResampleOutcome where
  table : Table
  target : Nat
  trials : Nat
  status : ResampleStatus
  log : WarningLog
  deriving DecidableEq

structure Resampler where
  pipeline : Pipeline
  options : ResampleOptions
  trials : Nat

structure ResampleRun (State : Type) where
  result : Except ResampleError ResampleOutcome
  resampler : Resampler
  state : State

/-- Maps drawn rows back to the form in which they are filtered. -/
abbrev Inverse := Table → Except String Table

def largestWord : Nat := twoTo 64 - 1

/-- The value rounded up to a natural number of 64 bits; values out of range give the nearest one,
and NaN gives zero. -/
def wordAbove (value : Float) : Nat :=
  match ceilNat? value with
  | some size => min size largestWord
  | none => if isNaN value || isNegative value then 0 else largestWord

namespace Resampler

def of (pipeline : Pipeline) (options : ResampleOptions) : Resampler :=
  ⟨pipeline, options, 0⟩

def batchRows (resampler : Resampler) (target : Nat) : Nat :=
  max (wordAbove (resampler.options.ratio * ofInt target)) 1

def check (resampler : Resampler) (data : Table) (target : Nat) : Except ResampleError Unit :=
  let ratio := resampler.options.ratio
  if target = 0 then .error .noTarget
  else if data.isEmpty then .error .noData
  else if !isFinite ratio || rank ratio ≤ 0 then .error (.badRatio ratio)
  else if resampler.options.maxTrials = 0 then .error .noTrials
  else (resampler.pipeline.validate data).mapError .constraint

def passing (resampler : Resampler) (inverse : Option Inverse) (batch : Except DrawFault Table) :
    Except ResampleError (Table × List Warning) := do
  let drawn ← batch.mapError DrawFault.error
  let restored ← match inverse with
    | some restore => (restore drawn).mapError .source
    | none => .ok drawn
  let filtering := resampler.pipeline.apply restored
  let passed ← filtering.result.mapError .constraint
  .ok (passed, filtering.warnings)

def gatherRows (kept : Option Table) (passed : Table) : Except ResampleError Table :=
  match kept with
  | none => .ok passed.distinct
  | some rows => ((rows.concat passed).mapError .table).map Table.distinct

def exhausted (maxTrials trials target reached : Nat) : Warning :=
  ⟨"resample_exhausted", "resample", s!"max_trials={natText maxTrials}",
    s!"reached {natText reached} of {natText target} rows after {natText trials} trials"⟩

def finish (resampler : Resampler) (sampler : Sampler) (rows : Table) (target : Nat)
    (log : WarningLog) : ResampleOutcome :=
  ⟨rows.sample sampler target resampler.options.seed, target, resampler.trials, .done, log⟩

def abort (resampler : Resampler) (rows : Table) (target : Nat) (log : WarningLog) :
    ResampleOutcome :=
  ⟨rows, target, resampler.trials, .aborted,
    log.record (exhausted resampler.options.maxTrials resampler.trials target rows.size)⟩

def countTrial (resampler : Resampler) : Resampler :=
  { resampler with trials := resampler.trials + 1 }

def loop {State : Type} (sampler : Sampler) (source : Source State) (inverse : Option Inverse)
    (data : Table) (target batch : Nat) (resampler : Resampler) (kept : Option Table)
    (log : WarningLog) (state : State) : Nat → ResampleRun State
  | 0 => ⟨.ok (resampler.abort (kept.getD data.emptyLike) target log), resampler, state⟩
  | remaining + 1 =>
    let resampler := resampler.countTrial
    let (drawn, state) := source.draw batch state
    match resampler.passing inverse drawn with
    | .error error => ⟨.error error, resampler, state⟩
    | .ok (passed, warnings) =>
      let log := log.recordAll warnings
      match gatherRows kept passed with
      | .error error => ⟨.error error, resampler, state⟩
      | .ok rows =>
        if target ≤ rows.size then
          ⟨.ok (resampler.finish sampler rows target log), resampler, state⟩
        else loop sampler source inverse data target batch resampler (some rows) log state remaining

/-- Draws from the source until enough rows pass; the data is what the source was made from. A run
that cannot begin leaves the count of trials as it was. -/
def run {State : Type} (resampler : Resampler) (sampler : Sampler) (source : Source State)
    (inverse : Option Inverse) (data : Table) (target : Nat) (state : State) : ResampleRun State :=
  match resampler.check data target with
  | .error error => ⟨.error error, resampler, state⟩
  | .ok () =>
    loop sampler source inverse data target (resampler.batchRows target)
      { resampler with trials := 0 } none (WarningLog.empty.merge resampler.pipeline.buildLog) state
      resampler.options.maxTrials

end Resampler

end TableSieve
