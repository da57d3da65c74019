import TableSieve.Json.Basic
import TableSieve.Number.Reading

/-!
Reading JSON. The members of an object are sorted by name, and the last of several members with one
name is kept. Nesting is limited. A number without point and exponent is a whole number if it fits
in 64 bits; `-0` and all others are floats, made from the leading digits that fit in 64 bits by one
multiplication or division by a power of ten.
-/

namespace TableSieve.Json

open TableSieve.Number
open TableSieve.Text (isAsciiDigit)

abbrev Rest (chars : List Char) := { rest : List Char // rest.length < chars.length }

def isSpace (c : Char) : Bool :=
  c = ' ' || c = '\n' || c = '\r' || c = '\t'

def skipSpace (chars : List Char) : List Char :=
  chars.dropWhile isSpace

theorem skipSpace_length_le (chars : List Char) : (skipSpace chars).length ≤ chars.length :=
  (List.dropWhile_suffix isSpace).length_le

theorem skipSpace_lt {c : Char} {chars rest : List Char} (start : skipSpace chars = c :: rest) :
    rest.length < chars.length := by
  have bound := skipSpace_length_le chars
  rw [start, List.length_cons] at bound
  omega

def codeUnit? (a b c d : Char) : Option Nat := do
  some (((← hexValue? a) * 16 + (← hexValue? b)) * 256 + (← hexValue? c) * 16 + (← hexValue? d))

def simpleEscape? (c : Char) : Option Char :=
  if c = '"' ∨ c = '\\' ∨ c = '/' then some c
  else if c = 'b' then some (Char.ofNat 8)
  else if c = 'f' then some (Char.ofNat 12)
  else if c = 'n' then some '\n'
  else if c = 'r' then some '\r'
  else if c = 't' then some '\t'
  else none

def isLeadUnit (unit : Nat) : Bool :=
  0xD800 ≤ unit && unit < 0xDC00

def isTrailUnit (unit : Nat) : Bool :=
  0xDC00 ≤ unit && unit < 0xE000

/-- The characters up to the closing quote, in reverse after those read before. A code unit above
the basic plane needs its other half at once. -/
def readString (done : List Char) : List Char → Option (String × List Char)
  | [] => none
  | '"' :: rest => some (String.ofList done.reverse, rest)
  | '\\' :: 'u' :: a :: b :: c :: d :: '\\' :: 'u' :: e :: f :: g :: h :: rest =>
    match codeUnit? a b c d, codeUnit? e f g h with
    | some lead, some trail =>
      if isLeadUnit lead then
        if isTrailUnit trail then
          let code := 0x10000 + (lead - 0xD800) * 0x400 + (trail - 0xDC00)
          readString (Char.ofNat code :: done) rest
        else none
      else if isTrailUnit lead then none
      else readString (Char.ofNat lead :: done) ('\\' :: 'u' :: e :: f :: g :: h :: rest)
    | _, _ => none
  | '\\' :: 'u' :: a :: b :: c :: d :: rest =>
    match codeUnit? a b c d with
    | some unit =>
      if isLeadUnit unit || isTrailUnit unit then none
      else readString (Char.ofNat unit :: done) rest
    | none => none
  | '\\' :: c :: rest =>
    match simpleEscape? c with
    | some meant => readString (meant :: done) rest
    | none => none
  | c :: rest => if c.toNat < 32 then none else readString (c :: done) rest
termination_by chars => chars.length

def leadingDigits (significand dropped : Nat) : List Char → Nat × Nat
  | [] => (significand, dropped)
  | c :: rest =>
    let longer := significand * 10 + digitValue c
    if dropped = 0 ∧ longer < twoTo 64 then leadingDigits longer 0 rest
    else leadingDigits significand (dropped + 1) rest

def fractionDigits (significand : Nat) (exponent : Int) : List Char → Nat × Int
  | [] => (significand, exponent)
  | c :: rest =>
    let longer := significand * 10 + digitValue c
    if longer < twoTo 64 then fractionDigits longer (exponent - 1) rest else (significand, exponent)

def powerOfTen (exponent : Nat) : Float :=
  Decimal.toFloat false ⟨1, exponent⟩

/-- A float times a power of ten, in at most one step of each size; none if it overflows. Three
steps of `10 ^ -308` reach zero from any 64-bit number. -/
def scaled? (value : Float) (exponent : Int) : Nat → Option Float
  | 0 => some value
  | steps + 1 =>
    if exponent.natAbs ≤ 308 then
      if 0 ≤ exponent then
        let product := value * powerOfTen exponent.toNat
        if isFinite product then some product else none
      else some (value / powerOfTen exponent.natAbs)
    else if rank value = 0 then some value
    else if 0 ≤ exponent then none
    else scaled? (value / powerOfTen 308) (exponent + 308) steps

def floatOf? (negative : Bool) (significand : Nat) (exponent : Int) : Option Json :=
  (scaled? (ofInt significand) exponent 4).map fun value =>
    .float (if negative then -value else value)

def readPower? (chars : List Char) : Option (Int × List Char) :=
  let signed := match chars with
    | '+' :: rest => (false, rest)
    | '-' :: rest => (true, rest)
    | rest => (false, rest)
  let digits := signed.2.takeWhile isAsciiDigit
  if digits.isEmpty then none
  else
    let size : Int := valueOf digits
    some (if signed.1 then -size else size, signed.2.drop digits.length)

/-- A whole number, unless it is too large or a negative zero. -/
def wholeOf? (negative : Bool) (significand dropped : Nat) : Option Json :=
  if dropped = 0 ∧ !negative then some (.int significand)
  else if dropped = 0 ∧ 0 < significand ∧ significand ≤ twoTo 63 then some (.int (-significand))
  else floatOf? negative significand dropped

def readMagnitude? (negative : Bool) (chars : List Char) : Option (Json × List Char) := do
  let whole := chars.takeWhile isAsciiDigit
  let rest := chars.drop whole.length
  if whole.isEmpty || (whole.length ≠ 1 && whole.head? == some '0') then none
  else
    let (significand, dropped) := leadingDigits 0 0 whole
    match rest with
    | '.' :: after =>
      let fraction := after.takeWhile isAsciiDigit
      if fraction.isEmpty then none
      else
        let (significand, exponent) := fractionDigits significand dropped fraction
        let after := after.drop fraction.length
        match after with
        | c :: power =>
          if c = 'e' ∨ c = 'E' then
            let (size, final) ← readPower? power
            some (← floatOf? negative significand (exponent + size), final)
          else some (← floatOf? negative significand exponent, after)
        | [] => some (← floatOf? negative significand exponent, after)
    | c :: power =>
      if c = 'e' ∨ c = 'E' then
        let (size, final) ← readPower? power
        some (← floatOf? negative significand (dropped + size), final)
      else some (← wholeOf? negative significand dropped, rest)
    | [] => some (← wholeOf? negative significand dropped, rest)

def readNumber? : List Char → Option (Json × List Char)
  | '-' :: rest => readMagnitude? true rest
  | chars => readMagnitude? false chars

def shorter? {α : Type} (chars : List Char) (read : Option (α × List Char)) :
    Option (α × Rest chars) :=
  match read with
  | none => none
  | some (value, rest) =>
    if less : rest.length < chars.length then some (value, ⟨rest, less⟩) else none

def word? (word : List Char) (value : Json) (chars : List Char) : Option (Json × List Char) :=
  if word.isPrefixOf chars then some (value, chars.drop word.length) else none

def readScalar? : List Char → Option (Json × List Char)
  | '"' :: rest => (readString [] rest).map fun read => (.text read.1, read.2)
  | 'n' :: rest => word? ['u', 'l', 'l'] .null rest
  | 't' :: rest => word? ['r', 'u', 'e'] (.bool true) rest
  | 'f' :: rest => word? ['a', 'l', 's', 'e'] (.bool false) rest
  | chars => readNumber? chars

def readName? : List Char → Option (String × List Char)
  | '"' :: rest => readString [] rest
  | _ => none

mutual

/-- A value after optional white space. The depth counts the levels that may still be opened. -/
def readValue? (depth : Nat) (chars : List Char) : Option (Json × Rest chars) :=
  match start : skipSpace chars with
  | [] => none
  | c :: rest =>
    have less : rest.length < chars.length := skipSpace_lt start
    if c = '[' then
      if depth = 0 then none
      else match opening : skipSpace rest with
        | [] => none
        | next :: after =>
          if next = ']' then some (.array [], ⟨after, by have := skipSpace_lt opening; omega⟩)
          else match readItems? (depth - 1) rest with
            | none => none
            | some (items, ⟨final, further⟩) => some (.array items, ⟨final, by omega⟩)
    else if c = '\x7b' then
      if depth = 0 then none
      else match opening : skipSpace rest with
        | [] => none
        | next :: after =>
          if next = '\x7d' then some (.object [], ⟨after, by have := skipSpace_lt opening; omega⟩)
          else match readMembers? (depth - 1) rest with
            | none => none
            | some (members, ⟨final, further⟩) =>
              some (.object (NameMap.ofEntries members), ⟨final, by omega⟩)
    else
      match shorter? (c :: rest) (readScalar? (c :: rest)) with
      | none => none
      | some (value, ⟨final, further⟩) =>
        some (value, ⟨final, by
          have bound := skipSpace_length_le chars
          rw [start] at bound
          omega⟩)
termination_by (chars.length, 0)
decreasing_by
  all_goals exact Prod.Lex.left _ _ less

def readItems? (depth : Nat) (chars : List Char) : Option (List Json × Rest chars) :=
  match readValue? depth chars with
  | none => none
  | some (item, ⟨rest, less⟩) =>
    match start : skipSpace rest with
    | [] => none
    | c :: after =>
      have further : after.length < rest.length := skipSpace_lt start
      if c = ']' then some ([item], ⟨after, by omega⟩)
      else if c = ',' then
        match readItems? depth after with
        | none => none
        | some (items, ⟨final, last⟩) => some (item :: items, ⟨final, by omega⟩)
      else none
termination_by (chars.length, 1)
decreasing_by
  · exact Prod.Lex.right _ (by omega)
  · exact Prod.Lex.left _ _ (by omega)

def readMembers? (depth : Nat) (chars : List Char) : Option (List (String × Json) × Rest chars) :=
  match shorter? (skipSpace chars) (readName? (skipSpace chars)) with
  | none => none
  | some (name, ⟨named, first⟩) =>
    match mark : skipSpace named with
    | [] => none
    | colon :: valueChars =>
      have second : valueChars.length < named.length := skipSpace_lt mark
      have bound := skipSpace_length_le chars
      if colon = ':' then
        match readValue? depth valueChars with
        | none => none
        | some (value, ⟨rest, third⟩) =>
          match start : skipSpace rest with
          | [] => none
          | c :: after =>
            have further : after.length < rest.length := skipSpace_lt start
            if c = '\x7d' then some ([(name, value)], ⟨after, by omega⟩)
            else if c = ',' then
              match readMembers? depth after with
              | none => none
              | some (members, ⟨final, last⟩) =>
                some ((name, value) :: members, ⟨final, by omega⟩)
            else none
      else none
termination_by (chars.length, 1)
decreasing_by
  · exact Prod.Lex.left _ _ (by omega)
  · exact Prod.Lex.left _ _ (by omega)

end

def depthLimit : Nat := 127

def readWith? (depth : Nat) (text : String) : Option Json :=
  match readValue? depth text.toList with
  | some (value, ⟨rest, _⟩) => if (skipSpace rest).isEmpty then some value else none
  | none => none

def read? (text : String) : Option Json :=
  readWith? depthLimit text

end TableSieve.Json
