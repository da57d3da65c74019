import TableSieve.Number.Power

/-!
The 64-bit binary floating-point numbers, seen through their bits. A finite number is a sign and a
magnitude `mantissa * 2 ^ exponent`; its rank is an integer that orders the numbers as their values
do and gives both zeros the rank 0. Rounding a quotient of natural numbers picks the nearest number,
and of two equally near ones the one with the even mantissa.
-/

namespace TableSieve.Number

structure Scaled where
  mantissa : Nat
  exponent : Int
  deriving DecidableEq

def signBit : Nat := twoTo 63

def mantissaSpan : Nat := twoTo 52

def infinityBits : Nat := 2047 * mantissaSpan

def magnitudeBits (value : Float) : Nat :=
  value.toBits.toNat % signBit

def isNegative (value : Float) : Bool :=
  signBit ≤ value.toBits.toNat

def isNaN (value : Float) : Bool :=
  infinityBits < magnitudeBits value

def isFinite (value : Float) : Bool :=
  magnitudeBits value < infinityBits

def ofMagnitude (negative : Bool) (bits : Nat) : Float :=
  Float.ofBits (UInt64.ofNat ((if negative then signBit else 0) + bits))

def infinity (negative : Bool) : Float :=
  ofMagnitude negative infinityBits

def notANumber : Float :=
  ofMagnitude false (infinityBits + mantissaSpan / 2)

def rank (value : Float) : Int :=
  if isNegative value then -(magnitudeBits value : Int) else magnitudeBits value

def scaledOf (bits : Nat) : Scaled :=
  if bits < mantissaSpan then ⟨bits, -1074⟩
  else ⟨bits % mantissaSpan + mantissaSpan, (bits / mantissaSpan : Int) - 1075⟩

def halfEven (numerator denominator : Nat) : Nat :=
  let quotient := numerator / denominator
  let twice := 2 * (numerator % denominator)
  if twice < denominator then quotient
  else if denominator < twice then quotient + 1
  else quotient + quotient % 2

/-- The largest `k` with `2 ^ k ≤ numerator / denominator`, for positive arguments. -/
def binaryOrder (numerator denominator : Nat) : Int :=
  let estimate : Int := (numerator.log2 : Int) - denominator.log2
  let reached :=
    if 0 ≤ estimate then denominator * twoTo estimate.toNat ≤ numerator
    else denominator ≤ numerator * twoTo (-estimate).toNat
  if reached then estimate else estimate - 1

def nearestBits (numerator denominator : Nat) : Nat :=
  if numerator = 0 then 0
  else
    let exponent := max (binaryOrder numerator denominator - 52) (-1074)
    let mantissa :=
      if 0 ≤ exponent then halfEven numerator (denominator * twoTo exponent.toNat)
      else halfEven (numerator * twoTo (-exponent).toNat) denominator
    min ((exponent + 1074).toNat * mantissaSpan + mantissa) infinityBits

def ofRatio (negative : Bool) (numerator denominator : Nat) : Float :=
  ofMagnitude negative (nearestBits numerator denominator)

def ofInt (value : Int) : Float :=
  ofRatio (value < 0) value.natAbs 1

def wholeValue? (value : Float) : Option Int :=
  if isFinite value then
    let scaled := scaledOf (magnitudeBits value)
    let size? :=
      if 0 ≤ scaled.exponent then some (scaled.mantissa * twoTo scaled.exponent.toNat)
      else
        let unit := twoTo (-scaled.exponent).toNat
        if scaled.mantissa % unit = 0 then some (scaled.mantissa / unit) else none
    size?.map fun size => if isNegative value then -(size : Int) else size
  else none

def ceilNat? (value : Float) : Option Nat :=
  if isFinite value then
    if isNegative value then some 0
    else
      let scaled := scaledOf (magnitudeBits value)
      if 0 ≤ scaled.exponent then some (scaled.mantissa * twoTo scaled.exponent.toNat)
      else
        let unit := twoTo (-scaled.exponent).toNat
        some ((scaled.mantissa + unit - 1) / unit)
  else none

end TableSieve.Number
