import Mathlib.Logic.Function.Basic
import TableSieve.Proofs.NameMaps
import TableSieve.Proofs.Resampling

/-!
Logs that are recorded into and merged into one another. A log is kept in two parts, and yet it is
always the log of a list of warnings: it has these in their order, and a count for each of their
codes. There is one such log to a list, and merging it puts the list behind what is there; so this
is the same as recording the warnings one by one.
-/

namespace TableSieve

/-! Counts by code. -/

def occurrences (warnings : List Warning) (code : String) : Nat :=
  (warnings.map (·.code)).count code

def tally? (warnings : List Warning) (code : String) : Option Nat :=
  if occurrences warnings code = 0 then none else some (occurrences warnings code)

theorem tally?_append (front rear : List Warning) (code : String) :
    tally? (front ++ rear) code = (tally? front code).merge (· + ·) (tally? rear code) := by
  have total : occurrences (front ++ rear) code =
      occurrences front code + occurrences rear code := by
    simp [occurrences, List.count_append]
  unfold tally?
  rw [total]
  by_cases inFront : occurrences front code = 0 <;> by_cases inRear : occurrences rear code = 0 <;>
    simp [inFront, inRear]

theorem tally?_eq_some_iff {warnings : List Warning} {code : String} {amount : Nat} :
    tally? warnings code = some amount ↔ amount = occurrences warnings code ∧ amount ≠ 0 := by
  unfold tally?
  split
  · rename_i absent
    simp [absent]
  · rename_i present
    rw [Option.some.injEq]
    exact ⟨fun same => ⟨same.symm, same ▸ present⟩, fun found => found.1.symm⟩

theorem getD_tally? (warnings : List Warning) (code : String) :
    (tally? warnings code).getD 0 = occurrences warnings code := by
  unfold tally?
  split
  · rename_i absent
    exact absent.symm
  · rfl

theorem some_addCount (more : Nat) (present : Option Nat) :
    some (addCount more present) = present.merge (· + ·) (some more) := by
  cases present <;> simp [addCount]

namespace NameMap

def addCounts (counts added : NameMap Nat) : NameMap Nat :=
  added.foldl (fun counts entry => counts.alter entry.1 (addCount entry.2)) counts

theorem Ascending.addCounts {counts : NameMap Nat} (ascending : counts.Ascending)
    (added : NameMap Nat) : (counts.addCounts added).Ascending := by
  induction added generalizing counts with
  | nil => exact ascending
  | cons entry added ih => exact ih (ascending.alter entry.1 _)

/-- The added counts are for different codes, so that to each code there is added once. -/
theorem Ascending.get?_addCounts {counts added : NameMap Nat} (ascending : counts.Ascending)
    (addedAscending : added.Ascending) (code : String) :
    (counts.addCounts added).get? code =
      (counts.get? code).merge (· + ·) (added.get? code) := by
  induction added generalizing counts with
  | nil => simp [NameMap.addCounts, get?]
  | cons entry added ih =>
      obtain ⟨above, later⟩ := List.pairwise_cons.mp addedAscending
      have first := ascending.get?_alter entry.1 (addCount entry.2) code
      rw [NameMap.addCounts, List.foldl_cons, ← NameMap.addCounts,
        ih (ascending.alter entry.1 _) later, first, get?_cons]
      split
      · rename_i same
        have absent : get? added code = none :=
          get?_eq_none_iff.mpr fun member => (above code member).ne same
        rw [absent, Option.merge_none_right, some_addCount, same]
      · rfl

end NameMap

/-! The log of a list of warnings. -/

namespace WarningLog

structure Tallies (log : WarningLog) (warnings : List Warning) : Prop where
  warnings_eq : log.warnings = warnings
  ascending : log.counts.Ascending
  get?_counts : ∀ code, log.counts.get? code = tally? warnings code

namespace Tallies

variable {log other : WarningLog} {warnings more : List Warning}

theorem empty : WarningLog.empty.Tallies [] :=
  ⟨rfl, .nil, fun _ => rfl⟩

theorem merge (tallies : log.Tallies warnings) (others : other.Tallies more) :
    (log.merge other).Tallies (warnings ++ more) where
  warnings_eq := by rw [WarningLog.merge, tallies.warnings_eq, others.warnings_eq]
  ascending := tallies.ascending.addCounts other.counts
  get?_counts code := by
    have added := tallies.ascending.get?_addCounts others.ascending code
    rw [tallies.get?_counts, others.get?_counts, ← tally?_append] at added
    exact added

theorem record (tallies : log.Tallies warnings) (warning : Warning) :
    (log.record warning).Tallies (warnings ++ [warning]) := by
  have alone : (⟨[warning], [(warning.code, 1)]⟩ : WarningLog).Tallies [warning] := by
    refine ⟨rfl, List.pairwise_singleton .., fun code => ?_⟩
    by_cases same : warning.code = code <;>
      simp [NameMap.get?, tally?, occurrences, same]
  exact tallies.merge alone

theorem recordAll (tallies : log.Tallies warnings) (more : List Warning) :
    (log.recordAll more).Tallies (warnings ++ more) := by
  induction more generalizing log warnings with
  | nil => rwa [List.append_nil]
  | cons warning more ih =>
      have rest := ih (tallies.record warning)
      rwa [List.append_assoc] at rest

theorem unique (tallies : log.Tallies warnings) (others : other.Tallies warnings) :
    log = other := by
  have counts : log.counts = other.counts :=
    tallies.ascending.eq_of_get?_eq others.ascending fun code =>
      (tallies.get?_counts code).trans (others.get?_counts code).symm
  have same : log.warnings = other.warnings := tallies.warnings_eq.trans others.warnings_eq.symm
  cases log
  cases other
  exact congrArg₂ WarningLog.mk same counts

theorem merge_eq_recordAll (tallies : log.Tallies warnings) (others : other.Tallies more) :
    log.merge other = log.recordAll other.warnings := by
  rw [others.warnings_eq]
  exact (tallies.merge others).unique (tallies.recordAll more)

theorem mem_counts_iff (tallies : log.Tallies warnings) {code : String} {amount : Nat} :
    (code, amount) ∈ log.counts ↔ amount = occurrences warnings code ∧ amount ≠ 0 := by
  rw [← tallies.ascending.get?_eq_some_iff, tallies.get?_counts, tally?_eq_some_iff]

theorem count_eq (tallies : log.Tallies warnings) (code : String) :
    log.count code = occurrences warnings code := by
  rw [count, tallies.get?_counts, getD_tally?]

end Tallies

end WarningLog

/-! Logs that grow side by side. -/

/-- What happens to one of several logs, each at a place: a warning is recorded into it, or a copy
of the log at another place is merged into it. -/
inductive LogStep (Place : Type)
  | record (place : Place) (warning : Warning)
  | merge (place source : Place)

namespace LogStep

variable {Place : Type} [DecidableEq Place]

def apply (logs : Place → WarningLog) : LogStep Place → Place → WarningLog
  | record place warning => Function.update logs place ((logs place).record warning)
  | merge place source => Function.update logs place ((logs place).merge (logs source))

/-- The warnings recorded into each log, with those that a copy brought along. -/
def extend (histories : Place → List Warning) : LogStep Place → Place → List Warning
  | record place warning => Function.update histories place (histories place ++ [warning])
  | merge place source => Function.update histories place (histories place ++ histories source)

def logsAfter (steps : List (LogStep Place)) : Place → WarningLog :=
  steps.foldl apply fun _ => .empty

def historiesAfter (steps : List (LogStep Place)) : Place → List Warning :=
  steps.foldl extend fun _ => []

variable {logs : Place → WarningLog} {histories : Place → List Warning}

theorem apply_tallies (tallies : ∀ place, (logs place).Tallies (histories place))
    (step : LogStep Place) (place : Place) :
    (step.apply logs place).Tallies (step.extend histories place) := by
  cases step with
  | record changed warning =>
      rw [apply, extend, Function.update_apply, Function.update_apply]
      split
      · exact (tallies changed).record warning
      · exact tallies place
  | merge changed source =>
      rw [apply, extend, Function.update_apply, Function.update_apply]
      split
      · exact (tallies changed).merge (tallies source)
      · exact tallies place

theorem logsAfter_tallies (steps : List (LogStep Place)) (place : Place) :
    (logsAfter steps place).Tallies (historiesAfter steps place) := by
  have onto (steps : List (LogStep Place)) : ∀ {logs histories},
      (∀ place, WarningLog.Tallies (logs place) (histories place)) →
      ∀ place, (steps.foldl apply logs place).Tallies (steps.foldl extend histories place) := by
    induction steps with
    | nil => exact fun tallies => tallies
    | cons step steps ih => exact fun tallies => ih (apply_tallies tallies step)
  exact onto steps (fun _ => .empty) place

/-- However two or more logs are recorded into and merged into one another, each has its warnings in
the order in which they came. It has a count for exactly the codes of these, one to a code and in
ascending order, and this is the number of the warnings with the code. Merging any of the logs into
any other is the same as recording its warnings there one by one. -/
theorem logsAfter_keep_count (steps : List (LogStep Place)) (place : Place) :
    let log := logsAfter steps place
    let history := historiesAfter steps place
    log.warnings = history ∧
      log.counts.Ascending ∧
      (∀ code amount, (code, amount) ∈ log.counts ↔
        amount = occurrences history code ∧ amount ≠ 0) ∧
      (∀ code, log.count code = occurrences history code) ∧
      ∀ source, log.merge (logsAfter steps source) =
        log.recordAll (logsAfter steps source).warnings := by
  intro log history
  have tallies : log.Tallies history := logsAfter_tallies steps place
  exact ⟨tallies.warnings_eq, tallies.ascending, fun _ _ => tallies.mem_counts_iff,
    tallies.count_eq, fun source => tallies.merge_eq_recordAll (logsAfter_tallies steps source)⟩

example :
    let unlike : Warning := ⟨"incomparable_types", "field_constraints", "age > name", ""⟩
    let unknown : Warning := ⟨"unknown_field", "field_constraints", "size > 0", ""⟩
    (logsAfter [.record false unknown, .merge true false, .record true unlike, .merge false true]
      false).counts = [("incomparable_types", 1), ("unknown_field", 2)] := by
  decide +kernel

end LogStep

/-! The log of a run. -/

theorem Registry.build_tallies {Error Made : Type} {registry : Registry Error Made}
    {config : Config} {pipeline : Pipeline Made} (built : registry.build config = .ok pipeline) :
    pipeline.buildLog.Tallies pipeline.buildLog.warnings := by
  have tallies := WarningLog.Tallies.empty.recordAll (registry.unknownKinds config)
  rwa [← Registry.buildLog_eq built, ← tallies.warnings_eq] at tallies

namespace Resampler

variable {State : Type} {sampler : Random.Sampler} {source : Source State}
  {inverse : Option Inverse} {data : Table} {target : Nat} {resampler : Resampler}
  {outcome : ResampleOutcome}

theorem loop_tallies {batch : Nat} {kept : Option Table} {log : WarningLog}
    {warnings : List Warning} (tallies : log.Tallies warnings) {state : State} {remaining : Nat}
    (ran : (loop sampler source inverse data target batch resampler kept log state
      remaining).result = .ok outcome) :
    ∃ more, outcome.log.Tallies (warnings ++ more) := by
  induction remaining generalizing resampler kept log warnings state with
  | zero =>
      rw [loop, Except.ok.injEq] at ran
      subst ran
      exact ⟨_, tallies.record _⟩
  | succ remaining ih =>
      rw [loop] at ran
      dsimp only at ran
      split at ran
      · cases ran
      · rename_i passed raised _
        have grown := tallies.recordAll raised
        split at ran
        · cases ran
        · split at ran
          · rw [Except.ok.injEq] at ran
            subst ran
            exact ⟨raised, grown⟩
          · obtain ⟨more, ends⟩ := ih grown ran
            exact ⟨raised ++ more, List.append_assoc .. ▸ ends⟩

/-- The log with which a run ends begins with the warnings raised when its pipeline was built. Its
counts are those of its warnings, so the two agree in every report of a run. -/
theorem run_tallies {registry : Registry} {config : Config}
    (built : registry.build config = .ok resampler.pipeline) {state : State}
    (ran : (resampler.run sampler source inverse data target state).result = .ok outcome) :
    ∃ more, outcome.log.Tallies (resampler.pipeline.buildLog.warnings ++ more) := by
  unfold run at ran
  split at ran
  · cases ran
  · exact loop_tallies (WarningLog.Tallies.empty.merge (Registry.build_tallies built)) ran

end Resampler

end TableSieve
