import TableSieve.Calendar.Date

/-!
Times of day and date-times. A leap second is a second `:60`, kept as the second before it with a
thousand million nanoseconds more, so it comes after every fraction of that second.
-/

namespace TableSieve.Calendar

open TableSieve.Number

def secondsPerDay : Nat := 86400

def nanosPerSecond : Nat := 1000000000

/-- Nanoseconds beyond a whole second occur only in the last second of a minute. -/
def IsTime (second nano : Nat) : Prop :=
  second < secondsPerDay ∧
    (nano < nanosPerSecond ∨ (second % 60 = 59 ∧ nano < 2 * nanosPerSecond))

instance (second nano : Nat) : Decidable (IsTime second nano) :=
  inferInstanceAs (Decidable (_ ∧ _))

structure Time where
  second : Nat
  nano : Nat
  isTime : IsTime second nano
  deriving DecidableEq

def Time.of? (second nano : Nat) : Option Time :=
  if isTime : IsTime second nano then some ⟨second, nano, isTime⟩ else none

def Time.midnight : Time :=
  ⟨0, 0, by decide⟩

structure DateTime where
  date : Date
  time : Time
  deriving DecidableEq

def Date.atMidnight (date : Date) : DateTime :=
  ⟨date, Time.midnight⟩

def DateTime.rank (moment : DateTime) : Int :=
  (moment.date.rank * secondsPerDay + moment.time.second) * (2 * nanosPerSecond) + moment.time.nano

/-- The date-time so many days later. A leap second becomes an ordinary one when it moves: the
second before it when it moves forward, the second after it when it moves back. -/
def DateTime.addDays? (moment : DateTime) (days : Int) : Option DateTime :=
  if moment.time.nano < nanosPerSecond then
    (moment.date.addDays? days).map fun date => ⟨date, moment.time⟩
  else if days = 0 then some moment
  else
    let nano := moment.time.nano - nanosPerSecond
    let second := if 0 < days then moment.time.second else moment.time.second + 1
    let carried : Int := days + (second / secondsPerDay : Nat)
    (moment.date.addDays? carried).bind fun date =>
      (Time.of? (second % secondsPerDay) nano).map fun time => ⟨date, time⟩

def Time.clockChars (time : Time) : List Char :=
  let second := time.second % 60 + time.nano / nanosPerSecond
  paddedDigits 2 (time.second / 3600) ++ ':' :: (paddedDigits 2 (time.second / 60 % 60) ++
    ':' :: paddedDigits 2 second)

/-- No fraction for a whole second, else the fewest of 3, 6 or 9 digits that are exact. -/
def Time.fractionChars (time : Time) : List Char :=
  let nano := time.nano % nanosPerSecond
  if nano = 0 then []
  else if nano % 1000000 = 0 then '.' :: paddedDigits 3 (nano / 1000000)
  else if nano % 1000 = 0 then '.' :: paddedDigits 6 (nano / 1000)
  else '.' :: paddedDigits 9 nano

def DateTime.secondChars (moment : DateTime) : List Char :=
  moment.date.chars ++ 'T' :: moment.time.clockChars

def DateTime.secondText (moment : DateTime) : String :=
  String.ofList moment.secondChars

def DateTime.text (moment : DateTime) : String :=
  String.ofList (moment.secondChars ++ moment.time.fractionChars)

end TableSieve.Calendar
