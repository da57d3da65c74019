import Mathlib.Order.Defs.LinearOrder
import Mathlib.Tactic.IntervalCases
import TableSieve.Proofs.MomentText

/-!
Day numbers. They grow with the dates, each leads back to its date, and a date found by a number has
this number: so they count the days, and adding days to a date gives the date whose number is larger
by that many. Within a cycle of 400 years, the year of a day is found by taking back the leap days:
one in 1460 days, but for the centuries.
-/

namespace TableSieve.Calendar

def yearOfCycle (dayOfCycle : Int) : Int :=
  (dayOfCycle - dayOfCycle / 1460 + dayOfCycle / 36524 - dayOfCycle / 146096) / 365

def daysBefore (year : Int) : Int :=
  365 * year + year / 4 - year / 100 + year / 400

section

variable {day : Int}

theorem yearOfCycle_bounds (fromStart : 0 ≤ day) (toEnd : day < 146097) :
    0 ≤ yearOfCycle day ∧ yearOfCycle day < 400 := by
  unfold yearOfCycle
  omega

/-- The last day of a cycle is one more than four centuries have. -/
theorem century_yearOfCycle (fromStart : 0 ≤ day) (toEnd : day < 146097) :
    yearOfCycle day / 100 = day / 36524 - day / 146096 := by
  have century : day / 36524 = 0 ∨ day / 36524 = 1 ∨ day / 36524 = 2 ∨ day / 36524 = 3 ∨
      day / 36524 = 4 := by omega
  unfold yearOfCycle
  rcases century with first | second | third | fourth | last <;> omega

theorem yearOfCycle_contains (fromStart : 0 ≤ day) (toEnd : day < 146097) :
    daysBefore (yearOfCycle day) ≤ day ∧ day < daysBefore (yearOfCycle day + 1) := by
  have century := century_yearOfCycle fromStart toEnd
  have bounds := yearOfCycle_bounds fromStart toEnd
  have spread : 365 * yearOfCycle day ≤ day - day / 1460 + day / 36524 - day / 146096 ∧
      day - day / 1460 + day / 36524 - day / 146096 < 365 * yearOfCycle day + 365 := by
    unfold yearOfCycle
    omega
  generalize yearOfCycle day = year at *
  unfold daysBefore
  constructor
  · have fourth : year / 400 = 0 := by omega
    omega
  · by_cases last : year % 100 = 99
    · have ends : year = 99 ∨ year = 199 ∨ year = 299 ∨ year = 399 := by omega
      rcases ends with rfl | rfl | rfl | rfl <;> omega
    · have sameCentury : (year + 1) / 100 = year / 100 := by omega
      have fourth : (year + 1) / 400 = 0 := by omega
      omega

theorem daysBefore_succ (year : Int) :
    daysBefore (year + 1) =
      daysBefore year + if isLeapYear (year + 1) then 366 else 365 := by
  unfold daysBefore isLeapYear
  split <;> simp_all <;> omega

theorem daysBefore_emod_add (year more : Int) :
    daysBefore (year % 400 + more) = daysBefore (year + more) - year / 400 * 146097 := by
  unfold daysBefore
  omega

theorem daysBefore_mono {year later : Int} (ordered : year ≤ later) :
    daysBefore year ≤ daysBefore later := by
  unfold daysBefore
  omega

theorem yearOfCycle_eq {year : Int} (fromStart : 0 ≤ day) (toEnd : day < 146097)
    (begun : daysBefore year ≤ day) (unfinished : day < daysBefore (year + 1)) :
    yearOfCycle day = year := by
  obtain ⟨begins, ends⟩ := yearOfCycle_contains fromStart toEnd
  rcases lt_trichotomy (yearOfCycle day) year with earlier | same | later
  · have atMost := daysBefore_mono earlier
    omega
  · exact same
  · have atLeast := daysBefore_mono later
    omega

end

namespace Date

def marchYear (date : Date) : Int :=
  if date.month ≤ 2 then date.year - 1 else date.year

def monthFromMarch (date : Date) : Int :=
  (date.month + 9) % 12

def dayOfYear (date : Date) : Int :=
  (153 * date.monthFromMarch + 2) / 5 + date.day - 1

theorem dayNumber_eq (date : Date) :
    date.dayNumber = daysBefore date.marchYear + date.dayOfYear - 719468 := by
  have number : date.dayNumber = date.marchYear / 400 * 146097 +
      (date.marchYear % 400 * 365 + date.marchYear % 400 / 4 - date.marchYear % 400 / 100 +
        date.dayOfYear) - 719468 := by
    simp [dayNumber, marchYear, dayOfYear, monthFromMarch]
  rw [number, daysBefore]
  omega

theorem dayOfYear_bounds (date : Date) :
    0 ≤ date.dayOfYear ∧
      date.dayOfYear < if isLeapYear (date.marchYear + 1) then 366 else 365 := by
  have days := date.day_le
  obtain ⟨year, month, day, ⟨_, ⟨fromOne, toTwelve⟩, fromFirst, toLast⟩⟩ := date
  simp only [marchYear, dayOfYear, monthFromMarch] at days ⊢
  by_cases february : month = 2
  · subst february
    simp only [daysInMonth, if_true] at toLast
    simp only [Int.sub_add_cancel, Nat.le_refl, if_true]
    split at toLast <;> simp_all <;> omega
  · constructor
    · omega
    · split <;> omega

/-- Months of 153 days in five, counted from March, leave no day to a wrong month. -/
theorem monthFromMarch_eq (date : Date) :
    (5 * date.dayOfYear + 2) / 153 = date.monthFromMarch := by
  obtain ⟨year, month, day, ⟨_, ⟨fromOne, toTwelve⟩, fromFirst, toLast⟩⟩ := date
  have february : daysInMonth year 2 ≤ 29 := by
    simp only [daysInMonth, if_true]
    split <;> decide
  simp only [dayOfYear, monthFromMarch]
  interval_cases month <;> simp [daysInMonth] at toLast february ⊢ <;> omega

def onDay? (marchYear dayOfYear : Int) : Option Date :=
  let monthFromMarch := (5 * dayOfYear + 2) / 153
  let day := dayOfYear - (153 * monthFromMarch + 2) / 5 + 1
  let month := if monthFromMarch < 10 then monthFromMarch + 3 else monthFromMarch - 9
  Date.of? (marchYear + (if month ≤ 2 then 1 else 0)) month.toNat day.toNat

theorem onDay?_dayOfYear (date : Date) :
    onDay? date.marchYear date.dayOfYear = some date := by
  obtain ⟨_, ⟨fromOne, toTwelve⟩, fromFirst, _⟩ := date.isDate
  have itself : Date.of? date.year date.month date.day = some date := dif_pos date.isDate
  simp only [onDay?, date.monthFromMarch_eq]
  rw [← itself]
  unfold dayOfYear marchYear monthFromMarch
  congr 1
  · split <;> split <;> omega
  · split <;> omega
  · omega

theorem eq_of_of? {year : Int} {month day : Nat} {date : Date}
    (found : Date.of? year month day = some date) :
    date.year = year ∧ date.month = month ∧ date.day = day := by
  unfold Date.of? at found
  split at found
  · cases found
    exact ⟨rfl, rfl, rfl⟩
  · cases found

theorem eq_of_onDay? {marchYear dayOfYear : Int} {date : Date}
    (found : onDay? marchYear dayOfYear = some date) (fromFirst : 0 ≤ dayOfYear)
    (toLast : dayOfYear < 366) :
    date.marchYear = marchYear ∧ date.dayOfYear = dayOfYear := by
  obtain ⟨sameYear, sameMonth, sameDay⟩ := eq_of_of? found
  have someDay := date.isDate.2.2.1
  have sameMonthFromMarch : date.monthFromMarch = (5 * dayOfYear + 2) / 153 := by
    unfold monthFromMarch
    split at sameMonth <;> omega
  constructor
  · unfold Date.marchYear
    split at sameMonth <;> split at sameYear <;> split <;> omega
  · rw [Date.dayOfYear, sameMonthFromMarch]
    omega

theorem ofDayNumber?_eq {number : Int} :
    let cycle := (number + 719468) / 146097
    let day := (number + 719468) % 146097
    ofDayNumber? number =
      onDay? (yearOfCycle day + cycle * 400) (day - daysBefore (yearOfCycle day)) := by
  intro cycle day
  have bounds : 0 ≤ yearOfCycle day ∧ yearOfCycle day < 400 :=
    yearOfCycle_bounds (Int.emod_nonneg _ (by decide)) (Int.emod_lt_of_pos _ (by decide))
  have same : day - daysBefore (yearOfCycle day) =
      day - (365 * yearOfCycle day + yearOfCycle day / 4 - yearOfCycle day / 100) := by
    unfold daysBefore
    omega
  rw [same]
  rfl

theorem ofDayNumber?_dayNumber (date : Date) : ofDayNumber? date.dayNumber = some date := by
  obtain ⟨fromFirst, toLast⟩ := date.dayOfYear_bounds
  rw [← add_lt_add_iff_left (daysBefore date.marchYear), ← daysBefore_succ] at toLast
  have ofCycle := daysBefore_emod_add date.marchYear 0
  have ofCycleNext := daysBefore_emod_add date.marchYear 1
  rw [Int.add_zero, Int.add_zero] at ofCycle
  have notLater := daysBefore_mono (show date.marchYear % 400 + 1 ≤ 400 by omega)
  have fromStart := daysBefore_mono (show 0 ≤ date.marchYear % 400 by omega)
  have first : daysBefore 0 = 0 := rfl
  have last : daysBefore 400 = 146097 := rfl
  have number := date.dayNumber_eq
  have cycle : (date.dayNumber + 719468) / 146097 = date.marchYear / 400 := by omega
  have day : (date.dayNumber + 719468) % 146097 =
      daysBefore (date.marchYear % 400) + date.dayOfYear := by omega
  have year : yearOfCycle (daysBefore (date.marchYear % 400) + date.dayOfYear) =
      date.marchYear % 400 :=
    yearOfCycle_eq (by omega) (by omega) (by omega) (by omega)
  have rest : daysBefore (date.marchYear % 400) + date.dayOfYear -
      daysBefore (date.marchYear % 400) = date.dayOfYear := by omega
  rw [ofDayNumber?_eq, cycle, day, year, rest, Int.emod_add_ediv_mul]
  exact date.onDay?_dayOfYear

theorem dayNumber_of_ofDayNumber? {number : Int} {date : Date}
    (found : ofDayNumber? number = some date) : date.dayNumber = number := by
  have fromStart : 0 ≤ (number + 719468) % 146097 := Int.emod_nonneg _ (by decide)
  have toEnd : (number + 719468) % 146097 < 146097 := Int.emod_lt_of_pos _ (by decide)
  obtain ⟨begins, ends⟩ := yearOfCycle_contains fromStart toEnd
  have bounds := yearOfCycle_bounds fromStart toEnd
  rw [ofDayNumber?_eq] at found
  generalize yearOfCycle ((number + 719468) % 146097) = year at *
  have yearLength : daysBefore (year + 1) ≤ daysBefore year + 366 := by
    rw [daysBefore_succ]
    split <;> omega
  obtain ⟨sameYear, sameDay⟩ := eq_of_onDay? found (by omega) (by omega)
  rw [dayNumber_eq, sameYear, sameDay]
  unfold daysBefore
  omega

theorem march_order {date later : Date} (less : date.rank < later.rank) :
    date.marchYear < later.marchYear ∨ date.marchYear = later.marchYear ∧
      (date.monthFromMarch < later.monthFromMarch ∨
        date.monthFromMarch = later.monthFromMarch ∧ date.day < later.day) := by
  obtain ⟨_, ⟨fromOne, toTwelve⟩, _⟩ := date.isDate
  obtain ⟨_, ⟨laterFromOne, laterToTwelve⟩, _⟩ := later.isDate
  have days := date.day_le
  have laterDays := later.day_le
  unfold rank at less
  unfold marchYear monthFromMarch
  split <;> split <;> omega

theorem dayNumber_lt_of_rank_lt {date later : Date} (less : date.rank < later.rank) :
    date.dayNumber < later.dayNumber := by
  rw [dayNumber_eq, dayNumber_eq]
  rcases march_order less with earlierYear | ⟨sameYear, inYear⟩
  · obtain ⟨_, toLast⟩ := date.dayOfYear_bounds
    rw [← add_lt_add_iff_left (daysBefore date.marchYear), ← daysBefore_succ] at toLast
    have before := daysBefore_mono earlierYear
    have fromFirst := later.dayOfYear_bounds.1
    omega
  · have month := date.monthFromMarch_eq
    have laterMonth := later.monthFromMarch_eq
    rw [sameYear]
    rcases inYear with earlierMonth | ⟨sameMonth, earlierDay⟩
    · omega
    · rw [dayOfYear, dayOfYear, sameMonth]
      omega

theorem addDays?_eq_some_iff {date later : Date} {days : Int} :
    date.addDays? days = some later ↔ later.dayNumber = date.dayNumber + days := by
  constructor
  · exact dayNumber_of_ofDayNumber?
  · intro number
    rw [addDays?, ← number]
    exact later.ofDayNumber?_dayNumber

end Date

end TableSieve.Calendar
