import TableSieve.Number.Shortest

/-!
Reading floating-point numbers. A number is an optional sign and either a name (`inf`, `infinity`,
`nan`, in any case) or decimal digits with at most one point among them and an optional exponent.
The result is the floating-point number nearest to the decimal.
-/

namespace TableSieve.Number

open TableSieve.Text (isAsciiDigit)

/-- The nearest number to `digits * 10 ^ exponent`. Decimals far outside the range of magnitudes are
infinite or zero, which spares the huge powers. -/
def Decimal.toFloat (negative : Bool) (decimal : Decimal) : Float :=
  let order := decimal.exponent + digitCount decimal.digits
  if decimal.digits = 0 ∨ order < -400 then ofMagnitude negative 0
  else if 400 < order then infinity negative
  else
    let sides := timesTen decimal.digits decimal.exponent
    ofRatio negative sides.1 sides.2

def readExponent? : List Char → Option Int
  | [] => some 0
  | mark :: rest => if mark == 'e' || mark == 'E' then readInt? rest else none

def readDecimal? (chars : List Char) : Option Decimal :=
  let whole := chars.takeWhile isAsciiDigit
  let afterWhole := chars.dropWhile isAsciiDigit
  let fraction := match afterWhole with
    | '.' :: rest => rest.takeWhile isAsciiDigit
    | _ => []
  let afterFraction := match afterWhole with
    | '.' :: rest => rest.dropWhile isAsciiDigit
    | rest => rest
  if whole.isEmpty && fraction.isEmpty then none
  else (readExponent? afterFraction).map fun exponent =>
    ⟨valueOf (whole ++ fraction), exponent - fraction.length⟩

def readMagnitude? (negative : Bool) (chars : List Char) : Option Float :=
  match readDecimal? chars with
  | some decimal => some (decimal.toFloat negative)
  | none =>
    let name := chars.map Char.toLower
    if name == ['i', 'n', 'f'] || name == ['i', 'n', 'f', 'i', 'n', 'i', 't', 'y'] then
      some (infinity negative)
    else if name == ['n', 'a', 'n'] then some notANumber
    else none

def readFloat? : List Char → Option Float
  | '+' :: rest => readMagnitude? false rest
  | '-' :: rest => readMagnitude? true rest
  | chars => readMagnitude? false chars

end TableSieve.Number
