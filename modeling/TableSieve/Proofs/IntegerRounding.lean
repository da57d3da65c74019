import Mathlib
import TableSieve.Proofs.Rounding

/-!
Rounding keeps order. Of two nearest mantissas the one of the greater quotient is not less, and the
exponents follow the orders of the quotients. So integers become floats in their order, and those of
at most 53 bits stay apart.
-/

namespace TableSieve.Number

open Float.Model

theorem nearestTo_halfEven (numerator : Nat) {denominator : Nat} (positive : 0 < denominator) :
    NearestTo (halfEven numerator denominator) numerator denominator := by
  have whole : denominator * (numerator / denominator) + numerator % denominator = numerator :=
    Nat.div_add_mod numerator denominator
  have small : numerator % denominator < denominator := Nat.mod_lt _ positive
  have next (quotient : Nat) :
      2 * (quotient + 1) * denominator = 2 * (denominator * quotient) + 2 * denominator := by ring
  have same (quotient : Nat) : 2 * quotient * denominator = 2 * (denominator * quotient) := by ring
  rw [halfEven]
  generalize numerator / denominator = quotient at *
  generalize numerator % denominator = rest at *
  split_ifs with below above
  · exact ⟨by rw [same]; omega, by rw [same]; omega, by rw [same]; omega⟩
  · exact ⟨by rw [next]; omega, by rw [next]; omega, by rw [next]; omega⟩
  · rcases Nat.mod_two_eq_zero_or_one quotient with even | odd
    · rw [even, Nat.add_zero]
      exact ⟨by rw [same]; omega, by rw [same]; omega, fun _ => even⟩
    · rw [odd]
      exact ⟨by rw [next]; omega, by rw [next]; omega, fun _ => by omega⟩

/-- Of two nearest integers the one of the greater quotient is not less: were it, both quotients
would lie in the middle between two neighbours, of which only one is even. -/
theorem NearestTo.mono {mantissa numerator denominator other otherNumerator otherDenominator : Nat}
    (positive : 0 < denominator) (otherPositive : 0 < otherDenominator)
    (less : numerator * otherDenominator ≤ otherNumerator * denominator)
    (nearest : NearestTo mantissa numerator denominator)
    (otherNearest : NearestTo other otherNumerator otherDenominator) : mantissa ≤ other := by
  obtain ⟨low, _, tie⟩ := nearest
  obtain ⟨_, high, otherTie⟩ := otherNearest
  by_contra greater
  have area : 0 < denominator * otherDenominator := Nat.mul_pos positive otherPositive
  have lowScaled := Nat.mul_le_mul_right otherDenominator low
  have highScaled := Nat.mul_le_mul_right denominator high
  obtain ⟨more, rfl⟩ : ∃ more, mantissa = other + 1 + more := ⟨mantissa - other - 1, by omega⟩
  have close : more = 0 := by nlinarith
  subst close
  have atLow : 2 * (other + 1 + 0) * denominator = 2 * numerator + denominator := by nlinarith
  have atHigh : 2 * otherNumerator = 2 * other * otherDenominator + otherDenominator := by
    nlinarith
  have even := tie (.inl atLow)
  have otherEven := otherTie (.inr atHigh)
  omega

theorem halfEven_one (numerator : Nat) : halfEven numerator 1 = numerator := by
  simp [halfEven, Nat.mod_one]

def mantissaOf (numerator denominator : Nat) (exponent : Int) : Nat :=
  if 0 ≤ exponent then halfEven numerator (denominator * twoTo exponent.toNat)
  else halfEven (numerator * twoTo (-exponent).toNat) denominator

theorem mantissaOf_eq_halfEven (numerator : Nat) {denominator : Nat} (positive : 0 < denominator)
    (exponent : Int) :
    ∃ scaled unit, 0 < unit ∧ mantissaOf numerator denominator exponent = halfEven scaled unit ∧
      (scaled / unit : ℚ) = numerator / denominator / 2 ^ exponent := by
  rw [mantissaOf]
  split
  · rename_i nonneg
    refine ⟨numerator, _, Nat.mul_pos positive (twoTo_pos _), rfl, ?_⟩
    rw [Nat.cast_mul, cast_twoTo_toNat nonneg, div_div]
  · rename_i negative
    refine ⟨_, denominator, positive, rfl, ?_⟩
    rw [Nat.cast_mul, cast_twoTo_neg_toNat (by omega), ← div_eq_mul_inv, div_right_comm]

section Monotone

variable {numerator denominator otherNumerator otherDenominator : Nat}

theorem halfEven_mono (positive : 0 < denominator) (otherPositive : 0 < otherDenominator)
    (less : (numerator / denominator : ℚ) ≤ otherNumerator / otherDenominator) :
    halfEven numerator denominator ≤ halfEven otherNumerator otherDenominator := by
  rw [div_le_div_iff₀ (by exact_mod_cast positive) (by exact_mod_cast otherPositive)] at less
  exact (nearestTo_halfEven numerator positive).mono positive otherPositive
    (by exact_mod_cast less) (nearestTo_halfEven otherNumerator otherPositive)

theorem mantissaOf_mono (positive : 0 < denominator) (otherPositive : 0 < otherDenominator)
    (less : (numerator / denominator : ℚ) ≤ otherNumerator / otherDenominator) (exponent : Int) :
    mantissaOf numerator denominator exponent ≤
      mantissaOf otherNumerator otherDenominator exponent := by
  obtain ⟨scaled, unit, unitPositive, same, ratio⟩ :=
    mantissaOf_eq_halfEven numerator positive exponent
  obtain ⟨otherScaled, otherUnit, otherUnitPositive, otherSame, otherRatio⟩ :=
    mantissaOf_eq_halfEven otherNumerator otherPositive exponent
  rw [same, otherSame]
  apply halfEven_mono unitPositive otherUnitPositive
  rw [ratio, otherRatio]
  exact div_le_div_of_nonneg_right less (zpow_pos two_pos exponent).le

theorem le_mantissaOf (positive : 0 < denominator) {mantissa : Nat} {exponent : Int}
    (low : (mantissa * 2 ^ exponent : ℚ) ≤ numerator / denominator) :
    mantissa ≤ mantissaOf numerator denominator exponent := by
  obtain ⟨scaled, unit, unitPositive, same, ratio⟩ :=
    mantissaOf_eq_halfEven numerator positive exponent
  rw [same, ← halfEven_one mantissa]
  apply halfEven_mono Nat.one_pos unitPositive
  rw [ratio, Nat.cast_one, div_one, le_div_iff₀ (zpow_pos two_pos exponent)]
  exact low

theorem mantissaOf_le (positive : 0 < denominator) {mantissa : Nat} {exponent : Int}
    (high : (numerator / denominator : ℚ) ≤ mantissa * 2 ^ exponent) :
    mantissaOf numerator denominator exponent ≤ mantissa := by
  obtain ⟨scaled, unit, unitPositive, same, ratio⟩ :=
    mantissaOf_eq_halfEven numerator positive exponent
  rw [same, ← halfEven_one mantissa]
  apply halfEven_mono unitPositive Nat.one_pos
  rw [ratio, Nat.cast_one, div_one, div_le_iff₀ (zpow_pos two_pos exponent)]
  exact high

theorem nearestBits_of_pos (positive : 0 < numerator) {exponent : Int}
    (same : max (binaryOrder numerator denominator - 52) (-1074) = exponent) :
    nearestBits numerator denominator =
      min ((exponent + 1074).toNat * mantissaSpan + mantissaOf numerator denominator exponent)
        infinityBits := by
  rw [nearestBits, if_neg (by omega), ← same]
  rfl

theorem nearestBits_le_infinityBits (numerator denominator : Nat) :
    nearestBits numerator denominator ≤ infinityBits := by
  rw [nearestBits]
  split
  · exact Nat.zero_le _
  · exact Nat.min_le_right _ _

theorem nearestBits_mono (positive : 0 < denominator) (otherPositive : 0 < otherDenominator)
    (less : (numerator / denominator : ℚ) ≤ otherNumerator / otherDenominator) :
    nearestBits numerator denominator ≤ nearestBits otherNumerator otherDenominator := by
  rcases Nat.eq_zero_or_pos numerator with rfl | numeratorPositive
  · simp [nearestBits]
  have otherNumeratorPositive : 0 < otherNumerator := by
    have quotient : (0 : ℚ) < numerator / denominator := by positivity
    by_contra zero
    obtain rfl : otherNumerator = 0 := by omega
    rw [Nat.cast_zero, zero_div] at less
    exact absurd quotient (not_lt_of_ge less)
  obtain ⟨low, high⟩ := binaryOrder_bounds numeratorPositive positive
  obtain ⟨otherLow, otherHigh⟩ := binaryOrder_bounds otherNumeratorPositive otherPositive
  have orders := (zpow_lt_zpow_iff_right₀ (one_lt_two (α := ℚ))).mp
    ((low.trans less).trans_lt otherHigh)
  obtain ⟨exponent, same⟩ : ∃ exponent, max (binaryOrder numerator denominator - 52) (-1074) =
      exponent := ⟨_, rfl⟩
  obtain ⟨otherExponent, otherSame⟩ : ∃ exponent,
      max (binaryOrder otherNumerator otherDenominator - 52) (-1074) = exponent := ⟨_, rfl⟩
  rw [nearestBits_of_pos numeratorPositive same, nearestBits_of_pos otherNumeratorPositive otherSame]
  apply min_le_min_right
  rcases (by omega : exponent = otherExponent ∨ exponent < otherExponent) with rfl | below
  · exact Nat.add_le_add_left (mantissaOf_mono positive otherPositive less exponent) _
  · -- The lower mantissa is at most the power of two at which the next exponent begins.
    have under : mantissaOf numerator denominator exponent ≤ 2 * mantissaSpan := by
      apply mantissaOf_le positive
      calc (numerator / denominator : ℚ)
        _ ≤ 2 ^ (binaryOrder numerator denominator + 1) := high.le
        _ ≤ 2 ^ (1 + 52 + exponent) := zpow_le_zpow_right₀ one_le_two (by omega)
        _ = (2 * mantissaSpan : Nat) * 2 ^ exponent := by
          rw [Nat.cast_mul, cast_mantissaSpan, zpow_add₀ two_ne_zero, zpow_add₀ two_ne_zero,
            zpow_one, Nat.cast_two]
    have above : mantissaSpan ≤ mantissaOf otherNumerator otherDenominator otherExponent := by
      apply le_mantissaOf otherPositive
      rw [cast_mantissaSpan, ← zpow_add₀ two_ne_zero]
      have atOrder : 52 + otherExponent = binaryOrder otherNumerator otherDenominator := by omega
      rw [atOrder]
      exact otherLow
    obtain ⟨more, gap⟩ : ∃ more, (otherExponent + 1074).toNat = (exponent + 1074).toNat + 1 + more :=
      ⟨(otherExponent - exponent - 1).toNat, by omega⟩
    rw [gap]
    nlinarith

end Monotone

theorem mantissaOf_of_nonpos (numerator : Nat) {exponent : Int} (nonpos : exponent ≤ 0) :
    mantissaOf numerator 1 exponent = numerator * twoTo (-exponent).toNat := by
  rw [mantissaOf]
  split
  · obtain rfl : exponent = 0 := by omega
    simp [twoTo, halfEven_one]
  · exact halfEven_one _

theorem nearestBits_of_small {value : Nat} (positive : 0 < value)
    (small : value < 2 * mantissaSpan) :
    nearestBits value 1 = (1022 + value.log2) * mantissaSpan + value * twoTo (52 - value.log2) ∧
      mantissaSpan ≤ value * twoTo (52 - value.log2) ∧
      value * twoTo (52 - value.log2) < 2 * mantissaSpan := by
  have span : mantissaSpan = 2 ^ 52 := rfl
  have low : 2 ^ value.log2 ≤ value := Nat.log2_self_le (by omega)
  have high : value < 2 ^ (value.log2 + 1) := Nat.lt_log2_self
  have order : value.log2 ≤ 52 := by
    rw [span, ← Nat.pow_succ'] at small
    have := (Nat.pow_lt_pow_iff_right (a := 2) (by decide)).mp (low.trans_lt small)
    omega
  have width : mantissaSpan ≤ value * twoTo (52 - value.log2) ∧
      value * twoTo (52 - value.log2) < 2 * mantissaSpan := by
    have power : 2 ^ value.log2 * twoTo (52 - value.log2) = mantissaSpan := by
      rw [span]
      change 2 ^ value.log2 * 2 ^ (52 - value.log2) = 2 ^ 52
      rw [← Nat.pow_add]
      congr 1
      omega
    have shift := twoTo_pos (52 - value.log2)
    rw [Nat.pow_succ'] at high
    constructor
    · exact power ▸ Nat.mul_le_mul_right _ low
    · calc value * twoTo (52 - value.log2)
        _ < 2 * 2 ^ value.log2 * twoTo (52 - value.log2) := Nat.mul_lt_mul_of_pos_right high shift
        _ = 2 * mantissaSpan := by rw [Nat.mul_assoc, power]
  refine ⟨?_, width⟩
  obtain ⟨lowCast, highCast⟩ := log2_between positive
  have binary : binaryOrder value 1 = value.log2 :=
    binaryOrder_eq positive Nat.one_pos (by simpa using lowCast) (by simpa using highCast)
  have exponent : max (binaryOrder value 1 - 52) (-1074) = (value.log2 : Int) - 52 := by omega
  have shifted : (-((value.log2 : Int) - 52)).toNat = 52 - value.log2 := by omega
  have raised : ((value.log2 : Int) - 52 + 1074).toNat = 1022 + value.log2 := by omega
  rw [nearestBits_of_pos positive exponent, mantissaOf_of_nonpos value (by omega), shifted, raised]
  apply Nat.min_eq_left
  have infinite : infinityBits = 2047 * mantissaSpan := rfl
  rw [infinite]
  nlinarith [width.2]

/-! Bits of a magnitude. -/

theorem toBits_ofBits {bits : UInt64} (number : bits.toNat % signBit ≤ infinityBits) :
    (Float.ofBits bits).toBits = bits := by
  have notNaN : ¬@UnpackedFloat.isNaNBits Format.binary64 bits.toBitVec = true := by
    intro nan
    simp only [UnpackedFloat.isNaNBits, UnpackedFloat.unpackExponent_def,
      UnpackedFloat.unpackMantissa_def, decide_eq_true_eq] at nan
    obtain ⟨exponent, mantissa⟩ := nan
    have highest := congrArg BitVec.toNat exponent
    have some : (BitVec.extractLsb' 0 52 bits.toBitVec).toNat ≠ 0 :=
      fun zero => mantissa (BitVec.eq_of_toNat_eq zero)
    simp [BitVec.extractLsb'_toNat, Nat.shiftRight_eq_div_pow] at highest some
    rw [show signBit = 9223372036854775808 by decide,
      show infinityBits = 9218868437227405312 by decide] at number
    omega
  have packed := @UnpackedFloat.pack_unpack Format.binary64 bits.toBitVec
  rw [if_neg notNaN] at packed
  exact UInt64.toBitVec_inj.mp packed

section OfMagnitude

variable {bits : Nat}

theorem toNat_toBits_ofMagnitude (negative : Bool) (number : bits ≤ infinityBits) :
    (ofMagnitude negative bits).toBits.toNat = (if negative then signBit else 0) + bits := by
  have infinite : infinityBits < signBit := by decide
  have width : 2 * signBit = UInt64.size := by decide
  have fits : (UInt64.ofNat ((if negative then signBit else 0) + bits)).toNat =
      (if negative then signBit else 0) + bits := by
    apply UInt64.toNat_ofNat_of_lt'
    split <;> omega
  rw [ofMagnitude, toBits_ofBits, fits]
  rw [fits]
  split
  · rw [Nat.add_mod_left, Nat.mod_eq_of_lt (by omega)]
    exact number
  · rw [Nat.zero_add, Nat.mod_eq_of_lt (by omega)]
    exact number

theorem magnitudeBits_ofMagnitude (negative : Bool) (number : bits ≤ infinityBits) :
    magnitudeBits (ofMagnitude negative bits) = bits := by
  have infinite : infinityBits < signBit := by decide
  rw [magnitudeBits, toNat_toBits_ofMagnitude negative number]
  split
  · rw [Nat.add_mod_left, Nat.mod_eq_of_lt (by omega)]
  · rw [Nat.zero_add, Nat.mod_eq_of_lt (by omega)]

theorem isNegative_ofMagnitude (negative : Bool) (number : bits ≤ infinityBits) :
    isNegative (ofMagnitude negative bits) = negative := by
  have infinite : infinityBits < signBit := by decide
  rw [isNegative, toNat_toBits_ofMagnitude negative number]
  cases negative
  · simp only [Bool.false_eq_true, if_false, decide_eq_false_iff_not]
    omega
  · simp

theorem rank_ofMagnitude (negative : Bool) (number : bits ≤ infinityBits) :
    rank (ofMagnitude negative bits) = if negative then -(bits : Int) else bits := by
  rw [rank, isNegative_ofMagnitude negative number, magnitudeBits_ofMagnitude negative number]

end OfMagnitude

/-! Integers as floats. -/

theorem nearestBits_le {value other : Nat} (less : value ≤ other) :
    nearestBits value 1 ≤ nearestBits other 1 := by
  apply nearestBits_mono Nat.one_pos Nat.one_pos
  simpa using less

theorem nearestBits_lt {value other : Nat} (less : value < other)
    (small : value < 2 * mantissaSpan) : nearestBits value 1 < nearestBits other 1 := by
  refine lt_of_le_of_ne (nearestBits_le less.le) fun same => ?_
  by_cases otherSmall : other < 2 * mantissaSpan
  · obtain ⟨otherBits, otherLow, otherHigh⟩ := nearestBits_of_small (by omega) otherSmall
    rcases Nat.eq_zero_or_pos value with rfl | positive
    · have zero : nearestBits 0 1 = 0 := rfl
      omega
    · obtain ⟨bits, low, high⟩ := nearestBits_of_small positive small
      rw [bits, otherBits] at same
      have orders : value.log2 = other.log2 := by
        rw [show mantissaSpan = 4503599627370496 by decide] at same low high otherLow otherHigh
        omega
      rw [orders, Nat.add_left_cancel_iff] at same
      exact less.ne (Nat.eq_of_mul_eq_mul_right (twoTo_pos _) same)
  · have limit : nearestBits (2 * mantissaSpan - 1) 1 < nearestBits (2 * mantissaSpan) 1 := by
      decide
    have below : nearestBits value 1 ≤ nearestBits (2 * mantissaSpan - 1) 1 :=
      nearestBits_le (by omega)
    have above : nearestBits (2 * mantissaSpan) 1 ≤ nearestBits other 1 :=
      nearestBits_le (by omega)
    omega

theorem rank_ofInt (value : Int) :
    rank (ofInt value) = if value < 0 then -(nearestBits value.natAbs 1 : Int)
      else nearestBits value.natAbs 1 := by
  rw [ofInt, ofRatio, rank_ofMagnitude _ (nearestBits_le_infinityBits _ _)]
  simp

theorem isNaN_ofInt (value : Int) : isNaN (ofInt value) = false := by
  have number := nearestBits_le_infinityBits value.natAbs 1
  rw [isNaN, ofInt, ofRatio, magnitudeBits_ofMagnitude _ number]
  simpa using number

theorem rank_ofInt_mono {value other : Int} (less : value ≤ other) :
    rank (ofInt value) ≤ rank (ofInt other) := by
  rw [rank_ofInt, rank_ofInt]
  split
  · split
    · have closer : other.natAbs ≤ value.natAbs := by omega
      have := nearestBits_le closer
      omega
    · omega
  · rw [if_neg (by omega)]
    have closer : value.natAbs ≤ other.natAbs := by omega
    have := nearestBits_le closer
    omega

def IsExact (value : Int) : Prop :=
  value.natAbs < 2 * mantissaSpan

instance (value : Int) : Decidable (IsExact value) :=
  inferInstanceAs (Decidable (_ < _))

theorem rank_ofInt_lt {value other : Int} (less : value < other)
    (exact : IsExact value ∨ IsExact other) : rank (ofInt value) < rank (ofInt other) := by
  unfold IsExact at exact
  rw [rank_ofInt, rank_ofInt]
  by_cases negative : value < 0
  · rw [if_pos negative]
    by_cases otherNegative : other < 0
    · rw [if_pos otherNegative]
      have closer : other.natAbs < value.natAbs := by omega
      have := nearestBits_lt closer (by omega)
      omega
    · rw [if_neg otherNegative]
      have positive : 0 < value.natAbs := by omega
      have := nearestBits_lt positive (Nat.mul_pos two_pos (twoTo_pos 52))
      omega
  · rw [if_neg negative, if_neg (by omega)]
    have closer : value.natAbs < other.natAbs := by omega
    have := nearestBits_lt closer (by omega)
    omega

theorem eq_of_rank_ofInt {value other : Int} (exact : IsExact value ∨ IsExact other)
    (same : rank (ofInt value) = rank (ofInt other)) : value = other := by
  rcases Int.lt_trichotomy value other with less | equal | greater
  · exact absurd same (rank_ofInt_lt less exact).ne
  · exact equal
  · exact absurd same.symm (rank_ofInt_lt greater exact.symm).ne

end TableSieve.Number
