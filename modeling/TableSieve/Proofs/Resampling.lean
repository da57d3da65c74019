import TableSieve.Proofs.Distinct
import TableSieve.Proofs.Narrowing
import TableSieve.Proofs.Sampling
import TableSieve.Resample.Run

/-!
Runs of resampling. What the trials of a run draw and let pass is fixed by the source alone; the
rows wanted are the different ones of all that passed. A run keeps only the different rows after
every trial, and yet stops at the first trial after which there are enough of them in all.
-/

namespace TableSieve

open TableSieve.Number TableSieve.Random

namespace WarningLog

theorem warnings_recordAll (log : WarningLog) (warnings : List Warning) :
    (log.recordAll warnings).warnings = log.warnings ++ warnings := by
  unfold recordAll
  induction warnings generalizing log with
  | nil => simp
  | cons warning warnings ih => rw [List.foldl_cons, ih]; simp [record]

def Quiet (log : WarningLog) : Prop :=
  ∀ warning ∈ log.warnings, warning.code ≠ "resample_exhausted"

theorem Quiet.recordAll {log : WarningLog} (quiet : log.Quiet) {warnings : List Warning}
    (known : ∀ warning ∈ warnings, warning.code ∈ Constraint.codes) :
    (log.recordAll warnings).Quiet := by
  intro warning member
  rw [warnings_recordAll] at member
  rcases List.mem_append.mp member with early | late
  · exact quiet warning early
  · intro code
    have listed := code ▸ known warning late
    simp [Constraint.codes, NullGroups.codes, FormulaList.codes] at listed

end WarningLog

theorem Registry.buildLog_eq {Error Made : Type} {registry : Registry Error Made} {config : Config}
    {pipeline : Pipeline Made} (built : registry.build config = .ok pipeline) :
    pipeline.buildLog = WarningLog.empty.recordAll (registry.unknownKinds config) := by
  unfold Registry.build at built
  cases constraints : Registry.buildAll config registry.builders with
  | error error => simp [constraints, Except.map] at built
  | ok list =>
      simp only [constraints, Except.map, Except.ok.injEq] at built
      rw [← built]

theorem Pipeline.quiet_of_config {config : Config} {pipeline : Pipeline}
    (built : Pipeline.ofConfig config = .ok pipeline) : pipeline.buildLog.Quiet := by
  intro warning member
  rw [Registry.buildLog_eq built, WarningLog.warnings_recordAll] at member
  simp only [WarningLog.empty, List.nil_append, Registry.unknownKinds, List.mem_map] at member
  obtain ⟨name, _, rfl⟩ := member
  simp [Registry.unknownKind]

/-- What the trials of a run are made of; they are counted from zero. -/
structure Trials (State : Type) where
  pipeline : Pipeline
  source : Source State
  inverse : Option Inverse
  batch : Nat
  start : State

namespace Trials

variable {State : Type}

def state (trials : Trials State) : Nat → State
  | 0 => trials.start
  | count + 1 => (trials.source.draw trials.batch (trials.state count)).2

def drawn (trials : Trials State) (trial : Nat) : Except DrawFault Table :=
  (trials.source.draw trials.batch (trials.state trial)).1

def restored (trials : Trials State) (trial : Nat) : Except DrawFault Table := do
  match trials.inverse with
  | some restore => (restore (← trials.drawn trial)).mapError .refused
  | none => trials.drawn trial

def passed (trials : Trials State) (trial : Nat) : Option Table := do
  (trials.pipeline.apply (← (trials.restored trial).toOption)).result.toOption

def union (trials : Trials State) : Nat → Option Table
  | 0 => trials.passed 0
  | trial + 1 => do ((← trials.union trial).concat (← trials.passed (trial + 1))).toOption

def Short (trials : Trials State) (target trial : Nat) : Prop :=
  ∃ rows, trials.union trial = some rows ∧ rows.distinct.size < target

inductive Fails (trials : Trials State) : Nat → ResampleError → Prop
  | source {trial : Nat} {fault : DrawFault} (refused : trials.drawn trial = .error fault) :
      Fails trials trial fault.error
  | inverse {trial : Nat} {drawn : Table} {restore : Inverse} {reason : String}
      (given : trials.drawn trial = .ok drawn) (inverse : trials.inverse = some restore)
      (refused : restore drawn = .error reason) : Fails trials trial (.source reason)
  | constraint {trial : Nat} {restored : Table} {error : ConfigError}
      (given : trials.restored trial = .ok restored)
      (refused : (trials.pipeline.apply restored).result = .error error) :
      Fails trials trial (.constraint error)
  | table {trial : Nat} {before passed : Table} {error : TableError}
      (kept : trials.union trial = some before) (given : trials.passed (trial + 1) = some passed)
      (refused : before.distinct.concat passed = .error error) :
      Fails trials (trial + 1) (.table error)

structure Lawful (trials : Trials State) : Prop where
  drawn : ∀ state table, (trials.source.draw trials.batch state).1 = .ok table → table.WellFormed
  restored : ∀ restore, trials.inverse = some restore → ∀ drawn table, drawn.WellFormed →
    restore drawn = .ok table → table.WellFormed

variable {trials : Trials State}

theorem restored_eq_error_iff {trial : Nat} {fault : DrawFault} :
    trials.restored trial = .error fault ↔ trials.drawn trial = .error fault ∨
      ∃ drawn restore reason, trials.drawn trial = .ok drawn ∧ trials.inverse = some restore ∧
        restore drawn = .error reason ∧ DrawFault.refused reason = fault := by
  unfold restored
  cases inverse : trials.inverse with
  | none => simp
  | some restore => simp [bind_eq_error_iff, mapError_eq_error_iff]

theorem Lawful.restored_wellFormed (lawful : trials.Lawful) {trial : Nat} {table : Table}
    (given : trials.restored trial = .ok table) : table.WellFormed := by
  unfold Trials.restored at given
  cases inverse : trials.inverse with
  | none =>
      simp only [inverse] at given
      exact lawful.drawn _ table given
  | some restore =>
      simp only [inverse, bind_eq_ok_iff, mapError_eq_ok_iff] at given
      obtain ⟨drawn, drawnOk, restoredOk⟩ := given
      exact lawful.restored restore inverse drawn table (lawful.drawn _ drawn drawnOk) restoredOk

theorem passed_eq_some_iff {trial : Nat} {table : Table} :
    trials.passed trial = some table ↔ ∃ restored, trials.restored trial = .ok restored ∧
      (trials.pipeline.apply restored).result = .ok table := by
  simp only [passed, Option.bind_eq_bind, Option.bind_eq_some_iff, toOption_eq_some_iff]

theorem Lawful.passed_wellFormed (lawful : trials.Lawful) {trial : Nat} {table : Table}
    (given : trials.passed trial = some table) : table.WellFormed := by
  obtain ⟨restored, restoredOk, passedOk⟩ := passed_eq_some_iff.mp given
  exact ((trials.pipeline.narrows_apply (lawful.restored_wellFormed restoredOk)).keeps
    table passedOk).1

theorem union_succ_eq_some_iff {trial : Nat} {table : Table} :
    trials.union (trial + 1) = some table ↔ ∃ before, trials.union trial = some before ∧
      ∃ passed, trials.passed (trial + 1) = some passed ∧ before.concat passed = .ok table := by
  simp only [union, Option.bind_eq_bind, Option.bind_eq_some_iff, toOption_eq_some_iff]

theorem Lawful.union_wellFormed (lawful : trials.Lawful) {trial : Nat} {table : Table}
    (given : trials.union trial = some table) : table.WellFormed := by
  induction trial generalizing table with
  | zero => exact lawful.passed_wellFormed given
  | succ trial ih =>
      obtain ⟨before, beforeGiven, passed, passedGiven, joined⟩ := union_succ_eq_some_iff.mp given
      exact (ih beforeGiven).concat (lawful.passed_wellFormed passedGiven) joined

def kept (trials : Trials State) : Nat → Option Table
  | 0 => none
  | trial + 1 => (trials.union trial).map Table.distinct

def Reaches (trials : Trials State) (trial : Nat) : Prop :=
  ∀ earlier < trial, ∃ rows, trials.union earlier = some rows

/-- Keeping only the different rows does not change which rows are kept in the end. -/
theorem Lawful.toOption_gatherRows (lawful : trials.Lawful) {trial : Nat} {passed : Table}
    (reaches : trials.Reaches trial) (given : trials.passed trial = some passed) :
    (Resampler.gatherRows (trials.kept trial) passed).toOption =
      (trials.union trial).map Table.distinct := by
  cases trial with
  | zero => simp [Resampler.gatherRows, kept, union, given, Except.toOption]
  | succ trial =>
      obtain ⟨before, beforeGiven⟩ := reaches trial (Nat.lt_succ_self trial)
      have merged := (lawful.union_wellFormed beforeGiven).distinct_concat
        (lawful.passed_wellFormed given)
      simp only [kept, beforeGiven, Option.map_some, Resampler.gatherRows, union, given,
        Option.bind_eq_bind, Option.bind_some]
      rw [← merged]
      cases before.distinct.concat passed <;> rfl

theorem gatherRows_eq_error_iff {trial : Nat} {passed : Table} {error : ResampleError}
    (reaches : trials.Reaches trial) (given : trials.passed trial = some passed) :
    Resampler.gatherRows (trials.kept trial) passed = .error error ↔
      ∃ earlier before fault, trial = earlier + 1 ∧ trials.union earlier = some before ∧
        before.distinct.concat passed = .error fault ∧ error = .table fault := by
  cases trial with
  | zero => simp [Resampler.gatherRows, kept]
  | succ trial =>
      obtain ⟨before, beforeGiven⟩ := reaches trial (Nat.lt_succ_self trial)
      simp only [kept, beforeGiven, Option.map_some, Resampler.gatherRows]
      cases joined : before.distinct.concat passed <;>
        simp [mapError_ok, mapError_error, Except.map, beforeGiven, joined, eq_comm]

def attempt (trials : Trials State) (trial : Nat) :
    Except ResampleError (Table × List Warning) := do
  let restored ← (trials.restored trial).mapError DrawFault.error
  let filtering := trials.pipeline.apply restored
  let passed ← filtering.result.mapError .constraint
  let rows ← Resampler.gatherRows (trials.kept trial) passed
  .ok (rows, filtering.warnings)

theorem Fails.attempt_eq {trial : Nat} {error : ResampleError} (fails : trials.Fails trial error)
    (reaches : trials.Reaches trial) : trials.attempt trial = .error error := by
  cases fails with
  | source refused =>
      have noRows := restored_eq_error_iff.mpr (Or.inl refused)
      simp [attempt, noRows, mapError_error, bind, Except.bind]
  | inverse given inverse refused =>
      have noRows := restored_eq_error_iff.mpr (Or.inr ⟨_, _, _, given, inverse, refused, rfl⟩)
      simp [attempt, noRows, mapError_error, bind, Except.bind, DrawFault.error]
  | constraint given refused =>
      simp [attempt, given, refused, mapError_ok, mapError_error, bind, Except.bind]
  | @table earlier before passed fault kept given refused =>
      obtain ⟨restored, restoredOk, passedOk⟩ := passed_eq_some_iff.mp given
      have joins := (gatherRows_eq_error_iff reaches given).mpr
        ⟨earlier, before, fault, rfl, kept, refused, rfl⟩
      simp [attempt, restoredOk, passedOk, joins, mapError_ok, bind, Except.bind]

theorem Lawful.attempt_eq (lawful : trials.Lawful) {trial : Nat} {rows : Table}
    (reaches : trials.Reaches trial) (given : trials.union trial = some rows) :
    ∃ warnings, trials.attempt trial = .ok (rows.distinct, warnings) ∧
      ∀ warning ∈ warnings, warning.code ∈ Constraint.codes := by
  have passes : ∃ passed, trials.passed trial = some passed := by
    cases trial with
    | zero => exact ⟨rows, given⟩
    | succ trial =>
        obtain ⟨_, _, passed, passedGiven, _⟩ := union_succ_eq_some_iff.mp given
        exact ⟨passed, passedGiven⟩
  obtain ⟨passed, passedGiven⟩ := passes
  obtain ⟨restored, restoredOk, passedOk⟩ := passed_eq_some_iff.mp passedGiven
  have gathered := lawful.toOption_gatherRows reaches passedGiven
  rw [given, Option.map_some, toOption_eq_some_iff] at gathered
  have narrows := trials.pipeline.narrows_apply (lawful.restored_wellFormed restoredOk)
  refine ⟨_, ?_, narrows.known⟩
  simp [attempt, restoredOk, passedOk, gathered, mapError_ok, bind, Except.bind]

theorem Lawful.fails_or_union (lawful : trials.Lawful) {trial : Nat}
    (reaches : trials.Reaches trial) :
    (∃ error, trials.Fails trial error) ∨ ∃ rows, trials.union trial = some rows := by
  cases restored : trials.restored trial with
  | error fault =>
      rcases restored_eq_error_iff.mp restored with refused | ⟨_, _, _, given, inverse, refused, _⟩
      · exact Or.inl ⟨_, .source refused⟩
      · exact Or.inl ⟨_, .inverse given inverse refused⟩
  | ok batch =>
      cases result : (trials.pipeline.apply batch).result with
      | error error => exact Or.inl ⟨_, .constraint restored result⟩
      | ok passed =>
          have given := passed_eq_some_iff.mpr ⟨batch, restored, result⟩
          cases gathered : Resampler.gatherRows (trials.kept trial) passed with
          | error error =>
              obtain ⟨earlier, before, fault, rfl, beforeGiven, refused, rfl⟩ :=
                (gatherRows_eq_error_iff reaches given).mp gathered
              exact Or.inl ⟨_, .table beforeGiven given refused⟩
          | ok rows =>
              have merged := lawful.toOption_gatherRows reaches given
              rw [gathered] at merged
              obtain ⟨union, unionGiven, _⟩ := Option.map_eq_some_iff.mp merged.symm
              exact Or.inr ⟨union, unionGiven⟩

abbrev counted (resampler : Resampler) (count : Nat) : Resampler :=
  { resampler with trials := count }

abbrev loopFrom (trials : Trials State) (sampler : Sampler) (resampler : Resampler) (data : Table)
    (target : Nat) (log : WarningLog) (trial remaining : Nat) : ResampleRun State :=
  Resampler.loop sampler trials.source trials.inverse data target trials.batch
    (counted resampler trial) (trials.kept trial) log (trials.state trial) remaining

theorem loopFrom_succ {sampler : Sampler} {resampler : Resampler}
    (samePipeline : resampler.pipeline = trials.pipeline) (data : Table) (target : Nat)
    (log : WarningLog) (trial remaining : Nat) :
    trials.loopFrom sampler resampler data target log trial (remaining + 1) =
      match trials.attempt trial with
      | .error error => ⟨.error error, counted resampler (trial + 1), trials.state (trial + 1)⟩
      | .ok (rows, warnings) =>
        if target ≤ rows.size then
          ⟨.ok ((counted resampler (trial + 1)).finish sampler rows target
              (log.recordAll warnings)),
            counted resampler (trial + 1), trials.state (trial + 1)⟩
        else
          Resampler.loop sampler trials.source trials.inverse data target trials.batch
            (counted resampler (trial + 1)) (some rows) (log.recordAll warnings)
            (trials.state (trial + 1)) remaining := by
  have passing : (counted resampler trial).countTrial.passing trials.inverse (trials.drawn trial) =
      (do
        let restored ← (trials.restored trial).mapError DrawFault.error
        let filtering := trials.pipeline.apply restored
        let passed ← filtering.result.mapError .constraint
        .ok (passed, filtering.warnings)) := by
    unfold Resampler.passing restored
    rw [← samePipeline]
    cases trials.drawn trial with
    | error fault => cases trials.inverse <;> rfl
    | ok drawn =>
        cases trials.inverse with
        | none => rfl
        | some restore =>
            simp only [mapError_ok, bind, Except.bind]
            cases restore drawn <;> rfl
  have draws : trials.source.draw trials.batch (trials.state trial) =
      (trials.drawn trial, trials.state (trial + 1)) := rfl
  simp only [loopFrom, Resampler.loop, draws, passing, attempt]
  cases (trials.restored trial).mapError DrawFault.error with
  | error error => rfl
  | ok restored =>
      simp only [bind, Except.bind]
      cases (trials.pipeline.apply restored).result.mapError ResampleError.constraint with
      | error error => rfl
      | ok passed =>
          simp only
          cases Resampler.gatherRows (trials.kept trial) passed <;> rfl

theorem Short.reaches {target trial : Nat}
    (short : ∀ earlier < trial, trials.Short target earlier) : trials.Reaches trial := by
  intro earlier before
  obtain ⟨rows, given, _⟩ := short earlier before
  exact ⟨rows, given⟩

theorem Lawful.loopFrom_of_short (lawful : trials.Lawful) {sampler : Sampler}
    {resampler : Resampler} (samePipeline : resampler.pipeline = trials.pipeline) (data : Table)
    {target : Nat} {log : WarningLog} (quiet : log.Quiet) {trial : Nat}
    (short : ∀ earlier < trial, trials.Short target earlier) (remaining : Nat) :
    ∃ more : WarningLog, more.Quiet ∧
      trials.loopFrom sampler resampler data target log 0 (trial + remaining) =
        trials.loopFrom sampler resampler data target more trial remaining := by
  induction trial generalizing remaining with
  | zero => exact ⟨log, quiet, by rw [Nat.zero_add]⟩
  | succ trial ih =>
      have before : ∀ earlier < trial, trials.Short target earlier :=
        fun earlier bound => short earlier (Nat.lt_succ_of_lt bound)
      obtain ⟨more, moreQuiet, same⟩ := ih before (remaining + 1)
      obtain ⟨rows, given, few⟩ := short trial (Nat.lt_succ_self trial)
      obtain ⟨warnings, attempted, known⟩ := lawful.attempt_eq (Short.reaches before) given
      refine ⟨more.recordAll warnings, moreQuiet.recordAll known, ?_⟩
      rw [Nat.add_right_comm, Nat.add_assoc, same, loopFrom_succ samePipeline, attempted]
      simp only [Nat.not_le.mpr few, if_false, loopFrom, kept, given, Option.map_some]

end Trials

def Resampler.trialsOf {State : Type} (resampler : Resampler) (source : Source State)
    (inverse : Option Inverse) (target : Nat) (start : State) : Trials State :=
  ⟨resampler.pipeline, source, inverse, resampler.batchRows target, start⟩

namespace Trials

variable {State : Type} {trials : Trials State}

structure EndsDone (trials : Trials State) (resampler : Resampler) (target trial : Nat)
    (union : Table) (run : ResampleRun State) : Prop where
  resampler : run.resampler = counted resampler (trial + 1)
  state : run.state = trials.state (trial + 1)
  outcome : ∃ outcome, run.result = .ok outcome ∧ outcome.status = .done ∧
    outcome.trials = trial + 1 ∧ outcome.target = target ∧ outcome.table.size = target ∧
    (∃ positions, Table.Selected union.distinct target outcome.table positions) ∧
    outcome.table.rows.Sublist union.distinct.rows ∧ (outcome.table.rows.map Table.rowKey).Nodup

structure EndsAborted (trials : Trials State) (resampler : Resampler) (target trial : Nat)
    (union : Table) (run : ResampleRun State) : Prop where
  resampler : run.resampler = counted resampler (trial + 1)
  state : run.state = trials.state (trial + 1)
  outcome : ∃ outcome, run.result = .ok outcome ∧ outcome.status = .aborted ∧
    outcome.trials = trial + 1 ∧ outcome.target = target ∧ outcome.table = union.distinct ∧
    outcome.log.warnings.countP (·.code == "resample_exhausted") = 1

theorem Lawful.endsDone (lawful : trials.Lawful) {sampler : Sampler}
    (samplerLawful : sampler.Lawful) {resampler : Resampler}
    (samePipeline : resampler.pipeline = trials.pipeline) (data : Table) {target : Nat}
    {log : WarningLog} {trial : Nat} {union : Table} (reaches : trials.Reaches trial)
    (given : trials.union trial = some union) (enough : target ≤ union.distinct.size)
    (remaining : Nat) :
    trials.EndsDone resampler target trial union
      (trials.loopFrom sampler resampler data target log trial (remaining + 1)) := by
  obtain ⟨warnings, attempted, _⟩ := lawful.attempt_eq reaches given
  have wellFormed := (lawful.union_wellFormed given).distinct
  obtain ⟨positions, selected⟩ :=
    wellFormed.sample_selected samplerLawful enough resampler.options.seed
  have ends : trials.loopFrom sampler resampler data target log trial (remaining + 1) =
      ⟨.ok ((counted resampler (trial + 1)).finish sampler union.distinct target
          (log.recordAll warnings)), counted resampler (trial + 1), trials.state (trial + 1)⟩ := by
    rw [loopFrom_succ samePipeline, attempted]
    exact if_pos enough
  have inOrder := selected.rows_sublist wellFormed
  rw [ends]
  exact ⟨rfl, rfl, _, rfl, rfl, rfl, rfl, selected.size_eq, ⟨positions, selected⟩, inOrder,
    (inOrder.map Table.rowKey).nodup union.nodup_rowKey_distinct⟩

theorem endsAborted {sampler : Sampler} {resampler : Resampler} (data : Table) {target : Nat}
    {log : WarningLog} (quiet : log.Quiet) {trial : Nat} {union : Table}
    (given : trials.union trial = some union) :
    trials.EndsAborted resampler target trial union
      (trials.loopFrom sampler resampler data target log (trial + 1) 0) := by
  refine ⟨rfl, rfl, _, rfl, rfl, rfl, rfl, ?_, ?_⟩
  · simp [Resampler.abort, kept, given]
  · have none : log.warnings.countP (·.code == "resample_exhausted") = 0 := by
      rw [List.countP_eq_zero]
      intro warning member
      simpa using quiet warning member
    simp [Resampler.abort, WarningLog.record, Resampler.exhausted, none]

theorem Lawful.short_or_enough_or_fails (lawful : trials.Lawful) (target : Nat) {trial : Nat}
    (reaches : trials.Reaches trial) :
    trials.Short target trial ∨
      (∃ union, trials.union trial = some union ∧ target ≤ union.distinct.size) ∨
      ∃ error, trials.Fails trial error := by
  rcases lawful.fails_or_union reaches with fails | ⟨union, given⟩
  · exact Or.inr (Or.inr fails)
  · rcases Nat.lt_or_ge union.distinct.size target with few | enough
    · exact Or.inl ⟨union, given, few⟩
    · exact Or.inr (Or.inl ⟨union, given, enough⟩)

end Trials

namespace Resampler

open Trials

variable {State : Type}

theorem check_eq_ok_iff {resampler : Resampler} {data : Table} {target : Nat} :
    resampler.check data target = .ok () ↔
      target ≠ 0 ∧ data.size ≠ 0 ∧
        (isFinite resampler.options.ratio = true ∧ 0 < rank resampler.options.ratio) ∧
        resampler.options.maxTrials ≠ 0 ∧ resampler.pipeline.validate data = .ok () := by
  simp only [check, ite_error_eq_ok_iff, mapError_eq_ok_iff, Table.isEmpty, decide_eq_true_eq,
    Bool.or_eq_true, Bool.not_eq_true', not_or, Bool.not_eq_false, Int.not_le, ne_eq]

/-- A run stops at the first trial after which enough different rows have passed, whatever sampler
cuts them down. -/
theorem run_by_trials {config : Config} {resampler : Resampler}
    (built : Pipeline.ofConfig config = .ok resampler.pipeline) {sampler : Sampler}
    (samplerLawful : sampler.Lawful) (source : Source State) (inverse : Option Inverse)
    (data : Table) (target : Nat) (start : State)
    (lawful : (resampler.trialsOf source inverse target start).Lawful) :
    let trials := resampler.trialsOf source inverse target start
    let run := resampler.run sampler source inverse data target start
    let maxTrials := resampler.options.maxTrials
    (∀ error, resampler.check data target = .error error → run = ⟨.error error, resampler, start⟩) ∧
      (resampler.check data target = .ok () →
        (∀ trial < maxTrials, (∀ earlier < trial, trials.Short target earlier) →
          (trials.Short target trial ∨
            (∃ union, trials.union trial = some union ∧ target ≤ union.distinct.size) ∨
            ∃ error, trials.Fails trial error) ∧
          (∀ union, trials.union trial = some union → target ≤ union.distinct.size →
            trials.EndsDone resampler target trial union run) ∧
          (∀ error, trials.Fails trial error →
            run = ⟨.error error, counted resampler (trial + 1), trials.state (trial + 1)⟩)) ∧
        ((∀ trial < maxTrials, trials.Short target trial) →
          ∃ union, trials.union (maxTrials - 1) = some union ∧
            trials.EndsAborted resampler target (maxTrials - 1) union run)) := by
  intro trials run maxTrials
  have samePipeline : resampler.pipeline = trials.pipeline := rfl
  have quiet : (WarningLog.empty.merge resampler.pipeline.buildLog).Quiet := by
    intro warning member
    exact Pipeline.quiet_of_config built warning
      (by simpa [WarningLog.merge, WarningLog.empty] using member)
  refine ⟨?_, fun checked => ?_⟩
  · intro error failed
    simp only [run, Resampler.run, failed]
  · have fromStart : run = trials.loopFrom sampler resampler data target
        (WarningLog.empty.merge resampler.pipeline.buildLog) 0 maxTrials := by
      simp only [run, Resampler.run, checked]
      rfl
    refine ⟨fun trial bound short => ?_, fun short => ?_⟩
    · have reaches := Short.reaches short
      obtain ⟨more, _, skipped⟩ := lawful.loopFrom_of_short samePipeline data quiet short
        (maxTrials - trial - 1 + 1)
      have onward : trial + (maxTrials - trial - 1 + 1) = maxTrials := by omega
      rw [onward, ← fromStart] at skipped
      -- No trial before this one has ended the run, so it is the rest of the run from here on.
      rw [skipped]
      refine ⟨lawful.short_or_enough_or_fails target reaches, ?_, ?_⟩
      · intro union given enough
        exact lawful.endsDone samplerLawful samePipeline data reaches given enough _
      · intro error fails
        rw [loopFrom_succ samePipeline, fails.attempt_eq reaches]
    · obtain ⟨_, _, _, someTrial, _⟩ := check_eq_ok_iff.mp checked
      have positive : 0 < maxTrials := Nat.pos_of_ne_zero someTrial
      obtain ⟨union, given, _⟩ := short (maxTrials - 1) (Nat.sub_lt positive Nat.one_pos)
      obtain ⟨more, moreQuiet, skipped⟩ := lawful.loopFrom_of_short samePipeline data quiet short 0
      rw [Nat.add_zero, ← fromStart] at skipped
      have last : maxTrials = maxTrials - 1 + 1 := by omega
      refine ⟨union, given, ?_⟩
      rw [skipped, last]
      exact endsAborted data moreQuiet given

theorem run_by_trials_second :
    let config : Config := ⟨[("nan_groups", .object [("x", .text "delete")])]⟩
    let pipeline : Pipeline := ⟨[.nullGroups ⟨[⟨"x", .delete⟩]⟩], .empty⟩
    let resampler : Resampler := .of pipeline ⟨3, 1, 10, 42⟩
    let batch (number : Nat) : Table :=
      ⟨[⟨"x", .int, [.int (Int64.ofNat number), .null, .int 7]⟩], 3⟩
    let source : Source Nat := ⟨fun _ number => (.ok (batch number), number + 1)⟩
    let trials := resampler.trialsOf source none 3 0
    let union : Table := ⟨[⟨"x", .int, [.int 0, .int 7, .int 1, .int 7]⟩], 4⟩
    Pipeline.ofConfig config = .ok resampler.pipeline ∧ trials.Lawful ∧
      resampler.check (batch 0) 3 = .ok () ∧ (∀ earlier < 1, trials.Short 3 earlier) ∧
      trials.EndsDone resampler 3 1 union (resampler.run sampler source none (batch 0) 3 0) := by
  intro config pipeline resampler batch source trials union
  have built : Pipeline.ofConfig config = .ok resampler.pipeline := by rfl
  have lawful : trials.Lawful := by
    refine ⟨?_, fun _ inverse => by simp [trials, trialsOf] at inverse⟩
    intro number table drawn
    obtain rfl : batch number = table := Except.ok.inj drawn
    refine ⟨by simp [batch], by simp [batch], ?_⟩
    simp [batch, Column.WellTyped, CellType.accepts, Cell.type?]
  have checked : resampler.check (batch 0) 3 = .ok () := by rfl
  have short : ∀ earlier < 1, trials.Short 3 earlier := by
    intro earlier bound
    obtain rfl : earlier = 0 := by omega
    refine ⟨⟨[⟨"x", .int, [.int 0, .int 7]⟩], 2⟩, by rfl, ?_⟩
    rw [Table.WellFormed.size_distinct (by decide)]
    decide +kernel
  obtain ⟨_, runs⟩ := run_by_trials built sampler_lawful source none (batch 0) 3 0 lawful
  obtain ⟨_, done, _⟩ := (runs checked).1 1 (by decide) short
  have enough : 3 ≤ union.distinct.size := by
    rw [Table.WellFormed.size_distinct (by decide)]
    decide +kernel
  exact ⟨built, lawful, checked, short, done union (by rfl) enough⟩

end Resampler

end TableSieve
