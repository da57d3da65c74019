import TableSieve.Number.Digits
import TableSieve.Number.Binary64

/-!
The fewest decimal digits that still name a floating-point number. A decimal names the number when
it lies in the interval of reals that round to it; the ends belong to the interval exactly when the
mantissa is even. The grids of 1, 2, … 17 significant digits are tried in turn, on each of them only
the two neighbours of the number; the nearer neighbour wins, and a rule of the caller settles a tie.
-/

namespace TableSieve.Number

structure Decimal where
  digits : Nat
  exponent : Int
  deriving DecidableEq

inductive Tie
  | up
  | even
  deriving DecidableEq

def timesTen (value : Nat) (exponent : Int) : Nat × Nat :=
  if 0 ≤ exponent then (value * tenTo exponent.toNat, 1) else (value, tenTo (-exponent).toNat)

def decimalOrder (numerator denominator : Nat) : Int :=
  let estimate : Int := (digitCount numerator : Int) - digitCount denominator
  let power := timesTen denominator estimate
  if power.1 ≤ numerator * power.2 then estimate else estimate - 1

/-- The reals that round to a number: it and the ends of its interval, over one denominator. -/
structure Interval where
  low : Nat
  value : Nat
  high : Nat
  denominator : Nat
  closed : Bool

def intervalOf (scaled : Scaled) : Interval :=
  let below := if scaled.mantissa = mantissaSpan ∧ -1074 < scaled.exponent then 1 else 2
  let unit := if 0 ≤ scaled.exponent then twoTo scaled.exponent.toNat else 1
  { low := (4 * scaled.mantissa - below) * unit
    value := 4 * scaled.mantissa * unit
    high := (4 * scaled.mantissa + 2) * unit
    denominator := if 0 ≤ scaled.exponent then 4 else 4 * twoTo (-scaled.exponent).toNat
    closed := scaled.mantissa % 2 = 0 }

def Interval.contains (interval : Interval) (decimal : Decimal) : Bool :=
  let sides := timesTen decimal.digits decimal.exponent
  let point := sides.1 * interval.denominator
  let low := interval.low * sides.2
  let high := interval.high * sides.2
  if interval.closed then low ≤ point && point ≤ high else low < point && point < high

def Interval.cut (interval : Interval) (exponent : Int) : Decimal :=
  let unit := timesTen interval.denominator exponent
  ⟨interval.value * unit.2 / unit.1, exponent⟩

/-- The neighbour of the number on the grid of multiples of `10 ^ exponent` that names it. -/
def Interval.onGrid? (tie : Tie) (interval : Interval) (exponent : Int) : Option Decimal :=
  let unit := timesTen interval.denominator exponent
  let numerator := interval.value * unit.2
  let below := interval.cut exponent
  let above : Decimal := ⟨below.digits + 1, exponent⟩
  match interval.contains below, interval.contains above with
  | true, false => some below
  | false, true => some above
  | false, false => none
  | true, true =>
    let twice := 2 * (numerator % unit.1)
    if twice < unit.1 ∨ (twice = unit.1 ∧ tie = .even ∧ below.digits % 2 = 0) then some below
    else some above

/-- Every magnitude has a hit on the last grid, so the value cut to its digits is never reached. -/
def Interval.shortestFrom (tie : Tie) (interval : Interval) (order : Int) : Nat → Nat → Decimal
  | 0, places => interval.cut (order + 1 - places)
  | fuel + 1, places =>
    match interval.onGrid? tie (order + 1 - places) with
    | some decimal => decimal
    | none => interval.shortestFrom tie order fuel (places + 1)

def shortest (tie : Tie) (bits : Nat) : Decimal :=
  let interval := intervalOf (scaledOf bits)
  interval.shortestFrom tie (decimalOrder interval.value interval.denominator) 17 1

end TableSieve.Number
