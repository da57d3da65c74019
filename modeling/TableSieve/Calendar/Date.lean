import TableSieve.Number.Digits

/-!
Dates of the proleptic Gregorian calendar, from -262143-01-01 to +262142-12-31. Days are counted
from 1970-01-01 over cycles of 400 years, in years that start in March so that a leap day ends its
year.
-/

namespace TableSieve.Calendar

open TableSieve.Number

def firstYear : Int := -262143

def lastYear : Int := 262142

def isLeapYear (year : Int) : Bool :=
  year % 4 = 0 && (year % 100 ≠ 0 || year % 400 = 0)

def daysInMonth (year : Int) (month : Nat) : Nat :=
  if month = 2 then if isLeapYear year then 29 else 28
  else if month = 4 ∨ month = 6 ∨ month = 9 ∨ month = 11 then 30
  else 31

def IsDate (year : Int) (month day : Nat) : Prop :=
  (firstYear ≤ year ∧ year ≤ lastYear) ∧ (1 ≤ month ∧ month ≤ 12) ∧
    1 ≤ day ∧ day ≤ daysInMonth year month

instance (year : Int) (month day : Nat) : Decidable (IsDate year month day) :=
  inferInstanceAs (Decidable (_ ∧ _))

structure Date where
  year : Int
  month : Nat
  day : Nat
  isDate : IsDate year month day
  deriving DecidableEq

def Date.of? (year : Int) (month day : Nat) : Option Date :=
  if isDate : IsDate year month day then some ⟨year, month, day, isDate⟩ else none

def Date.rank (date : Date) : Int :=
  (date.year * 16 + date.month) * 32 + date.day

/-- Days since 1970-01-01. -/
def Date.dayNumber (date : Date) : Int :=
  let year := if date.month ≤ 2 then date.year - 1 else date.year
  let monthFromMarch := (date.month + 9) % 12
  let yearOfCycle := year % 400
  let dayOfYear : Int := (153 * monthFromMarch + 2) / 5 + date.day - 1
  let dayOfCycle := yearOfCycle * 365 + yearOfCycle / 4 - yearOfCycle / 100 + dayOfYear
  year / 400 * 146097 + dayOfCycle - 719468

def Date.ofDayNumber? (dayNumber : Int) : Option Date :=
  let shifted := dayNumber + 719468
  let dayOfCycle := shifted % 146097
  let yearOfCycle :=
    (dayOfCycle - dayOfCycle / 1460 + dayOfCycle / 36524 - dayOfCycle / 146096) / 365
  let dayOfYear := dayOfCycle - (365 * yearOfCycle + yearOfCycle / 4 - yearOfCycle / 100)
  let monthFromMarch := (5 * dayOfYear + 2) / 153
  let day := dayOfYear - (153 * monthFromMarch + 2) / 5 + 1
  let month := if monthFromMarch < 10 then monthFromMarch + 3 else monthFromMarch - 9
  let year := yearOfCycle + shifted / 146097 * 400 + (if month ≤ 2 then 1 else 0)
  Date.of? year month.toNat day.toNat

def Date.addDays? (date : Date) (days : Int) : Option Date :=
  Date.ofDayNumber? (date.dayNumber + days)

/-- Four digits at least, with a sign before the years below 0 and above 9999. -/
def yearChars (year : Int) : List Char :=
  if year < 0 then '-' :: paddedDigits 4 year.natAbs
  else if 9999 < year then '+' :: digitsOf year.natAbs
  else paddedDigits 4 year.natAbs

def Date.chars (date : Date) : List Char :=
  yearChars date.year ++ '-' :: (paddedDigits 2 date.month ++ '-' :: paddedDigits 2 date.day)

def Date.text (date : Date) : String :=
  String.ofList date.chars

end TableSieve.Calendar
