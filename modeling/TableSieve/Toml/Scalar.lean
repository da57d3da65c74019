import TableSieve.Calendar.Date
import TableSieve.Json.Basic
import TableSieve.Number.Reading
import TableSieve.Text.Split

/-!
Numbers, truth values, dates and times of TOML documents, as JSON. Underscores may stand between
digits. Whole numbers have 64 bits and a sign. JSON has no notation for the infinite numbers and
NaN, so these become null, and a date or time becomes an object with its text as the only member.
-/

namespace TableSieve.Toml

open TableSieve.Calendar TableSieve.Number TableSieve.Text

def moreDigits? (isDigit : Char → Bool) : List Char → Option (List Char × List Char)
  | '_' :: c :: rest =>
    if isDigit c then (moreDigits? isDigit rest).map fun read => (c :: read.1, read.2) else none
  | ['_'] => none
  | c :: rest =>
    if isDigit c then (moreDigits? isDigit rest).map fun read => (c :: read.1, read.2)
    else some ([], c :: rest)
  | [] => some ([], [])

def readDigits? (isDigit : Char → Bool) : List Char → Option (List Char × List Char)
  | c :: rest =>
    if isDigit c then (moreDigits? isDigit rest).map fun read => (c :: read.1, read.2) else none
  | [] => none

def readWhole? : List Char → Option (List Char × List Char)
  | '0' :: rest => some (['0'], rest)
  | chars => readDigits? isAsciiDigit chars

def isDigitOf (radix : Nat) (c : Char) : Bool :=
  match hexValue? c with
  | some value => value < radix
  | none => false

def valueIn (radix : Nat) (digits : List Char) : Nat :=
  digits.foldl (fun total c => radix * total + (hexValue? c).getD 0) 0

def intJson? (value : Int) : Option Json :=
  (int64? value).map fun small => .int small.toInt

def readRadix? (radix : Nat) (chars : List Char) : Option (Json × List Char) := do
  let (digits, rest) ← readDigits? (isDigitOf radix) chars
  some (← intJson? (valueIn radix digits), rest)

def floatJson (value : Float) : Json :=
  if isFinite value then .float value else .null

def readExponent? : List Char → Option (List Char × List Char)
  | c :: rest =>
    if c = 'e' || c = 'E' then do
      let (sign, unsigned) := match rest with
        | '+' :: more => (['+'], more)
        | '-' :: more => (['-'], more)
        | more => ([], more)
      let (digits, final) ← readDigits? isAsciiDigit unsigned
      some ('e' :: (sign ++ digits), final)
    else some ([], c :: rest)
  | [] => some ([], [])

def readFraction? : List Char → Option (List Char × List Char)
  | '.' :: rest => (readDigits? isAsciiDigit rest).map fun read => ('.' :: read.1, read.2)
  | chars => some ([], chars)

/-- A float may be too small for its sign's range below zero, but not above it. -/
def ofDecimal? (chars : List Char) : Option Json := do
  let value ← Number.readFloat? chars
  if value.toBits = (infinity false).toBits then none else some (floatJson value)

def readDecimal? (sign chars : List Char) : Option (Json × List Char) := do
  let (whole, afterWhole) ← readWhole? chars
  let (fraction, afterFraction) ← readFraction? afterWhole
  let (exponent, rest) ← Toml.readExponent? afterFraction
  if fraction.isEmpty && exponent.isEmpty then
    some (← (readInt? (sign ++ whole)).bind intJson?, rest)
  else some (← ofDecimal? (sign ++ whole ++ fraction ++ exponent), rest)

/-- A number after its sign; the names of the special numbers may have one as well. -/
def readSigned? (sign chars : List Char) : Option (Json × List Char) :=
  match after? ['i', 'n', 'f'] chars, after? ['n', 'a', 'n'] chars with
  | some rest, _ => some (.null, rest)
  | none, some rest => some (.null, rest)
  | none, none => Toml.readDecimal? sign chars

def readNumber? : List Char → Option (Json × List Char)
  | '0' :: 'x' :: rest => readRadix? 16 rest
  | '0' :: 'o' :: rest => readRadix? 8 rest
  | '0' :: 'b' :: rest => readRadix? 2 rest
  | '+' :: rest => readSigned? ['+'] rest
  | '-' :: rest => readSigned? ['-'] rest
  | chars => readSigned? [] chars

/-! Dates and times keep their text, with the separator and the offset in one spelling. -/

def readFixed? (width low high : Nat) (chars : List Char) : Option (Nat × List Char) :=
  let digits := chars.take width
  if digits.length = width && digits.all isAsciiDigit then
    let value := valueOf digits
    if low ≤ value ∧ value ≤ high then some (value, chars.drop width) else none
  else none

def readMark? (mark : Char) : List Char → Option (List Char)
  | [] => none
  | c :: rest => if c = mark then some rest else none

def readDay? (chars : List Char) : Option (List Char × List Char) := do
  let (year, rest) ← readFixed? 4 0 9999 chars
  let (month, rest) ← readFixed? 2 1 12 (← readMark? '-' rest)
  let (day, rest) ← readFixed? 2 1 31 (← readMark? '-' rest)
  if day ≤ daysInMonth year month then
    some (paddedDigits 4 year ++ '-' :: (paddedDigits 2 month ++ '-' :: paddedDigits 2 day), rest)
  else none

def readSecondFraction (chars : List Char) : List Char × List Char :=
  match chars with
  | '.' :: rest =>
    let digits := rest.takeWhile isAsciiDigit
    if digits.isEmpty then ([], chars)
    else
      let kept := ((digits.take 9).reverse.dropWhile (· == '0')).reverse
      (if kept.isEmpty then [] else '.' :: kept, rest.drop digits.length)
  | _ => ([], chars)

def readClock? (chars : List Char) : Option (List Char × List Char) := do
  let (hour, rest) ← readFixed? 2 0 23 chars
  let (minute, rest) ← readFixed? 2 0 59 (← readMark? ':' rest)
  let (second, rest) ← readFixed? 2 0 60 (← readMark? ':' rest)
  let (fraction, rest) := readSecondFraction rest
  let clock := paddedDigits 2 hour ++ ':' :: (paddedDigits 2 minute ++ ':' :: paddedDigits 2 second)
  some (clock ++ fraction, rest)

/-- An offset of zero has a plus sign. -/
def readOffset? (chars : List Char) : Option (List Char × List Char) :=
  match chars with
  | [] => some ([], [])
  | c :: rest =>
    if c = 'Z' || c = 'z' then some (['Z'], rest)
    else if c = '+' || c = '-' then do
      let (hour, rest) ← readFixed? 2 0 23 rest
      let (minute, rest) ← readFixed? 2 0 59 (← readMark? ':' rest)
      let sign := if hour = 0 ∧ minute = 0 then '+' else c
      some (sign :: (paddedDigits 2 hour ++ ':' :: paddedDigits 2 minute), rest)
    else some ([], chars)

/-- Two digits of an hour and a colon start a time, which is then read to its end. -/
def startsClock (chars : List Char) : Bool :=
  match readFixed? 2 0 23 chars with
  | some (_, ':' :: _) => true
  | _ => false

def startsDay (chars : List Char) : Bool :=
  match readFixed? 4 0 9999 chars with
  | some (_, '-' :: _) => true
  | _ => false

def readMoment? (chars : List Char) : Option (List Char × List Char) := do
  let (day, rest) ← readDay? chars
  match rest with
  | separator :: more =>
    if (separator = 'T' || separator = 't' || separator = ' ') && startsClock more then do
      let (clock, rest) ← readClock? more
      let (offset, rest) ← readOffset? rest
      some (day ++ 'T' :: (clock ++ offset), rest)
    else some (day, rest)
  | [] => some (day, [])

def momentJson (text : List Char) : Json :=
  .object [("$__toml_private_datetime", .text (String.ofList text))]

def readScalar? (chars : List Char) : Option (Json × List Char) :=
  match after? ['t', 'r', 'u', 'e'] chars, after? ['f', 'a', 'l', 's', 'e'] chars with
  | some rest, _ => some (.bool true, rest)
  | none, some rest => some (.bool false, rest)
  | none, none =>
    if startsDay chars then (readMoment? chars).map fun read => (momentJson read.1, read.2)
    else if startsClock chars then (readClock? chars).map fun read => (momentJson read.1, read.2)
    else readNumber? chars

end TableSieve.Toml
