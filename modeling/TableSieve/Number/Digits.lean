import TableSieve.Text.Word

/-!
Whole numbers in decimal notation. A number is written with no leading zero; reading takes any
non-empty run of ASCII digits, so what is written reads back.
-/

namespace TableSieve.Number

open TableSieve.Text (isAsciiDigit)

def digitChar (value : Nat) : Char :=
  Char.ofNat (48 + value)

def digitValue (c : Char) : Nat :=
  c.toNat - 48

def digitsOf (value : Nat) : List Char :=
  if value < 10 then [digitChar value]
  else digitsOf (value / 10) ++ [digitChar (value % 10)]

def valueOf (digits : List Char) : Nat :=
  digits.foldl (fun total c => 10 * total + digitValue c) 0

def hexValue? (c : Char) : Option Nat :=
  if isAsciiDigit c then some (c.toNat - 48)
  else if 'a' ≤ c ∧ c ≤ 'f' then some (c.toNat - 87)
  else if 'A' ≤ c ∧ c ≤ 'F' then some (c.toNat - 55)
  else none

def digitCount (value : Nat) : Nat :=
  (digitsOf value).length

def paddedDigits (width value : Nat) : List Char :=
  let digits := digitsOf value
  List.replicate (width - digits.length) '0' ++ digits

def readNat? (chars : List Char) : Option Nat :=
  if !chars.isEmpty && chars.all isAsciiDigit then some (valueOf chars) else none

def readInt? : List Char → Option Int
  | '+' :: rest => (readNat? rest).map Int.ofNat
  | '-' :: rest => (readNat? rest).map fun value => -Int.ofNat value
  | chars => (readNat? chars).map Int.ofNat

def int64? (value : Int) : Option Int64 :=
  if -9223372036854775808 ≤ value ∧ value ≤ 9223372036854775807 then some (Int64.ofInt value)
  else none

def readInt64? (chars : List Char) : Option Int64 :=
  (readInt? chars).bind int64?

def intChars (value : Int) : List Char :=
  if value < 0 then '-' :: digitsOf value.natAbs else digitsOf value.natAbs

def intText (value : Int) : String :=
  String.ofList (intChars value)

def natText (value : Nat) : String :=
  String.ofList (digitsOf value)

def clampInt64 (value : Int) : Int64 :=
  if value < -9223372036854775808 then -9223372036854775808
  else if 9223372036854775807 < value then 9223372036854775807
  else Int64.ofInt value

end TableSieve.Number
