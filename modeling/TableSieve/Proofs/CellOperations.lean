import TableSieve.Proofs.DayNumbers
import TableSieve.Proofs.NumberText
import TableSieve.Proofs.RowValues

/-!
What formulas do with single cells. A bare operand asks for a present cell that is not zero. The
comparisons ask for an order: of the integers themselves, of other numbers by their values, of
texts, and of points in time. A sum is exact or there is none, and a number of days moves a date to
the one that comes so many days later.
-/

namespace TableSieve

open TableSieve.Calendar TableSieve.Number

/-- What a comparison asks of two values of an ordered type. -/
def Comparison.Relates {α : Type} [LT α] [LE α] (comparison : Comparison) (left right : α) : Prop :=
  match comparison with
  | .greater => right < left
  | .greaterEqual => right ≤ left
  | .equal => left = right
  | .notEqual => left ≠ right
  | .less => left < right
  | .lessEqual => left ≤ right

theorem Comparison.holds_compare_iff {α : Type} [LinearOrder α] (comparison : Comparison)
    (left right : α) :
    comparison.holds (Ord.compare left right) = true ↔ comparison.Relates left right := by
  cases comparison with
  | greater => simp [holds, Relates, compare_gt_iff_gt]
  | greaterEqual => simp [holds, Relates, compare_ge_iff_ge]
  | equal => simp [holds, Relates]
  | notEqual => simp [holds, Relates]
  | less => simp [holds, Relates, compare_lt_iff_lt]
  | lessEqual => simp [holds, Relates, compare_le_iff_le]

namespace Cell

variable {left right : Cell}

theorem compare_of_number? {leftNumber rightNumber : Float}
    (leftIs : left.number? = some leftNumber) (rightIs : right.number? = some rightNumber)
    (notInts : ∀ first second, left = .int first → right ≠ .int second) :
    left.compare right = some (Ord.compare (rank leftNumber) (rank rightNumber)) := by
  have byNumbers : left.compareNumbers right =
      some (Ord.compare (rank leftNumber) (rank rightNumber)) := by
    rw [compareNumbers, leftIs, rightIs]
  unfold compare
  split
  · exact absurd rfl (notInts _ _ rfl)
  · cases leftIs
  · rw [byNumbers, Option.some_or]

theorem compare_of_moment? {leftMoment rightMoment : DateTime}
    (leftIs : left.moment? = some leftMoment) (rightIs : right.moment? = some rightMoment) :
    left.compare right = some (Ord.compare leftMoment.rank rightMoment.rank) := by
  have noNumber : left.number? = none := by
    cases left <;> first | rfl | cases leftIs
  unfold compare
  split
  · cases leftIs
  · cases leftIs
  · rw [compareNumbers, noNumber, Option.none_or, compareMoments, leftIs, rightIs]

theorem isTruthy_iff (cell : Cell) :
    cell.isTruthy = true ↔ cell.isMissing = false ∧ cell.compare (.int 0) ≠ some .eq := by
  have zero : rank (ofInt (0 : Int64).toInt) = 0 := by decide
  cases cell with
  | null => simp [isTruthy, isMissing]
  | bool value => cases value <;> decide
  | int value =>
      have exact : (int value).compare (.int 0) = some (Ord.compare value.toInt 0) := rfl
      rw [exact]
      simp [isTruthy, isMissing, ← Int64.toInt_inj]
  | float value =>
      cases missing : isNaN value with
      | true => simp [isTruthy, isMissing, missing]
      | false =>
          have number : (float value).number? = some value := by simp [number?, missing]
          have notInts : ∀ first second, float value = .int first → int 0 ≠ .int second := by
            intro first second same
            cases same
          rw [compare_of_number? number rfl notInts, zero]
          simp [isTruthy, isMissing, missing]
  | text value | date value | dateTime value =>
      simp [isTruthy, isMissing, compare, compareNumbers, compareMoments, number?, moment?]

theorem passes_of_compare {order : Ordering} (compares : left.compare right = some order)
    (comparison : Comparison) : comparison.passes left right = comparison.holds order := by
  have ordered := isSome_compare_iff.mp (Option.isSome_of_eq_some compares)
  obtain ⟨kind, leftKind, rightKind⟩ := ordered
  simp [passes_eq_comparesAs, comparesAs, leftKind, rightKind, compares]

theorem passes_int_iff (comparison : Comparison) (left right : Int64) :
    comparison.passes (.int left) (.int right) = true ↔
      comparison.Relates left.toInt right.toInt := by
  have compares : (int left).compare (.int right) = some (Ord.compare left.toInt right.toInt) := rfl
  rw [passes_of_compare compares]
  exact comparison.holds_compare_iff left.toInt right.toInt

theorem passes_text_iff (comparison : Comparison) (left right : String) :
    comparison.passes (.text left) (.text right) = true ↔ comparison.Relates left right := by
  have compares : (text left).compare (.text right) = some (Ord.compare left right) := rfl
  rw [passes_of_compare compares]
  exact comparison.holds_compare_iff left right

theorem passes_number?_iff (comparison : Comparison) {leftNumber rightNumber : Float}
    (leftIs : left.number? = some leftNumber) (rightIs : right.number? = some rightNumber)
    (notInts : ∀ first second, left = .int first → right ≠ .int second) :
    comparison.passes left right = true ↔
      comparison.Relates (rank leftNumber) (rank rightNumber) := by
  rw [passes_of_compare (compare_of_number? leftIs rightIs notInts)]
  exact comparison.holds_compare_iff _ _

theorem passes_moment?_iff (comparison : Comparison) {leftMoment rightMoment : DateTime}
    (leftIs : left.moment? = some leftMoment) (rightIs : right.moment? = some rightMoment) :
    comparison.passes left right = true ↔
      comparison.Relates leftMoment.rank rightMoment.rank := by
  rw [passes_of_compare (compare_of_moment? leftIs rightIs)]
  exact comparison.holds_compare_iff _ _

/-! Sums -/

theorem add?_int_iff {first second : Int64} {sum : Cell} :
    (int first).add? (.int second) = some sum ↔
      ∃ number : Int64, number.toInt = first.toInt + second.toInt ∧ .int number = sum := by
  have both : (int first).add? (.int second) =
      (int64? (first.toInt + second.toInt)).map .int := rfl
  simp only [both, Option.map_eq_some_iff, int64?_eq_some_iff]

theorem add?_date_iff {day : Date} {days : Int64} {sum : Cell} :
    (date day).add? (.int days) = some sum ↔
      ∃ later : Date, later.dayNumber = day.dayNumber + days.toInt ∧ .date later = sum := by
  have shifted : (date day).add? (.int days) = (day.addDays? days.toInt).map .date := rfl
  simp only [shifted, Option.map_eq_some_iff, Date.addDays?_eq_some_iff]

/-- The time of day stays, unless it is within a leap second. -/
theorem add?_dateTime_iff {moment : DateTime} (ordinary : moment.time.nano < nanosPerSecond)
    {days : Int64} {sum : Cell} :
    (dateTime moment).add? (.int days) = some sum ↔
      ∃ later : Date, later.dayNumber = moment.date.dayNumber + days.toInt ∧
        .dateTime ⟨later, moment.time⟩ = sum := by
  have shifted : (dateTime moment).add? (.int days) =
      (moment.addDays? days.toInt).map .dateTime := rfl
  rw [shifted, DateTime.addDays?, if_pos ordinary]
  simp only [Option.map_map, Option.map_eq_some_iff, Date.addDays?_eq_some_iff,
    Function.comp_apply]

end Cell

end TableSieve
