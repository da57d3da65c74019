import TableSieve.Calendar.DateTime
import TableSieve.Number.Power
import TableSieve.Text.Blank

/-!
Reading dates and date-times. White space may stand before a number; the separators must follow a
number at once. A year is one to four digits, or a sign and any number of digits; the other fields
are one or two digits and are checked as soon as they are read. The error says why the first field
or separator that does not fit was refused.
-/

namespace TableSieve.Calendar

open TableSieve.Number
open TableSieve.Text (isAsciiDigit dropBlanks)

inductive DateError
  | outOfRange
  | unexpectedChar
  | endsEarly
  | textLeft
  deriving DecidableEq

def DateError.message : DateError → String
  | .outOfRange => "input is out of range"
  | .unexpectedChar => "input contains invalid characters"
  | .endsEarly => "premature end of input"
  | .textLeft => "trailing input"

/-- At most `width` digits, at least one, whose value fits in 64 bits. -/
def readField (width : Nat) : List Char → Except DateError (Nat × List Char)
  | [] => .error .endsEarly
  | c :: rest =>
    let digits := ((c :: rest).take width).takeWhile isAsciiDigit
    if digits.isEmpty then .error .unexpectedChar
    else if 9223372036854775807 < valueOf digits then .error .outOfRange
    else .ok (valueOf digits, (c :: rest).drop digits.length)

/-- A signed year, which must fit in 32 bits, or a plain one of at most four digits. -/
def readYear (chars : List Char) : Except DateError (Int × List Char) := do
  let (year, rest) ← match dropBlanks chars with
    | '-' :: digits => (readField digits.length digits).map fun read => (-(read.1 : Int), read.2)
    | '+' :: digits => (readField digits.length digits).map fun read => ((read.1 : Int), read.2)
    | digits => (readField 4 digits).map fun read => ((read.1 : Int), read.2)
  if -2147483648 ≤ year ∧ year ≤ 2147483647 then .ok (year, rest) else .error .outOfRange

def readBounded (low high : Nat) (chars : List Char) : Except DateError (Nat × List Char) := do
  let (value, rest) ← readField 2 (dropBlanks chars)
  if low ≤ value ∧ value ≤ high then .ok (value, rest) else .error .outOfRange

def readMark (mark : Char) : List Char → Except DateError (List Char)
  | [] => .error .endsEarly
  | c :: rest => if c == mark then .ok rest else .error .unexpectedChar

def readDateFields (chars : List Char) : Except DateError ((Int × Nat × Nat) × List Char) := do
  let (year, rest) ← readYear chars
  let (month, rest) ← readBounded 1 12 (← readMark '-' rest)
  let (day, rest) ← readBounded 1 31 (← readMark '-' rest)
  .ok ((year, month, day), rest)

/-- Hour, minute and second; the second may be 60. -/
def readClockFields (chars : List Char) : Except DateError ((Nat × Nat × Nat) × List Char) := do
  let (hour, rest) ← readBounded 0 23 chars
  let (minute, rest) ← readBounded 0 59 (← readMark ':' rest)
  let (second, rest) ← readBounded 0 60 (← readMark ':' rest)
  .ok ((hour, minute, second), rest)

def dateOf (fields : Int × Nat × Nat) : Except DateError Date :=
  match Date.of? fields.1 fields.2.1 fields.2.2 with
  | some date => .ok date
  | none => .error .outOfRange

def timeOf? (fields : Nat × Nat × Nat) (nano : Nat) : Option Time :=
  let (hour, minute, second) := fields
  let minuteStart := (hour * 60 + minute) * 60
  if second = 60 then Time.of? (minuteStart + 59) (nanosPerSecond + nano)
  else Time.of? (minuteStart + second) nano

def readEnd : List Char → Except DateError Unit
  | [] => .ok ()
  | _ => .error .textLeft

def readDate (chars : List Char) : Except DateError Date := do
  let (fields, rest) ← readDateFields chars
  readEnd rest
  dateOf fields

inductive Separator
  | letterT
  | blanks

def Separator.skip : Separator → List Char → Except DateError (List Char)
  | .letterT, chars => readMark 'T' chars
  | .blanks, chars => .ok (dropBlanks chars)

/-- Up to nine digits of a second after a point; further digits are dropped. -/
def readFraction : List Char → Except DateError (Nat × List Char)
  | '.' :: rest =>
    (readField 9 rest).map fun read =>
      (read.1 * tenTo (9 - (rest.length - read.2.length)), read.2.dropWhile isAsciiDigit)
  | chars => .ok (0, chars)

def readDateTimeWith (separator : Separator)
    (fraction : List Char → Except DateError (Nat × List Char)) (chars : List Char) :
    Except DateError DateTime := do
  let (dateFields, rest) ← readDateFields chars
  let (clockFields, rest) ← readClockFields (← separator.skip rest)
  let (nano, rest) ← fraction rest
  readEnd rest
  let date ← dateOf dateFields
  match timeOf? clockFields nano with
  | some time => .ok ⟨date, time⟩
  | none => .error .outOfRange

def readDateTime (separator : Separator) (chars : List Char) : Except DateError DateTime :=
  readDateTimeWith separator (fun rest => .ok (0, rest)) chars

def readExactDateTime (chars : List Char) : Except DateError DateTime :=
  readDateTimeWith .letterT readFraction chars

def readAnyDateTime? (chars : List Char) : Option DateTime :=
  match readDateTime .letterT chars with
  | .ok moment => some moment
  | .error _ => (readDateTime .blanks chars).toOption

end TableSieve.Calendar
