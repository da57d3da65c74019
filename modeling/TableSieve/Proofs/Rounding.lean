import Mathlib.Algebra.Order.Field.Rat
import Mathlib.Algebra.Order.Floor.Ring
import Mathlib.Tactic.FieldSimp
import Mathlib.Tactic.Linarith
import Mathlib.Tactic.NormNum
import Mathlib.Tactic.Positivity
import Mathlib.Tactic.Ring
import TableSieve.Number.Shortest

/-!
Rounding to the nearest number, over the rationals. The interval of a magnitude holds the rationals
that round to it: every quotient within the interval has that magnitude as the nearest one.
-/

namespace TableSieve.Number

/-! Powers. -/

theorem cast_twoTo (exponent : Nat) : (twoTo exponent : ℚ) = 2 ^ exponent := by
  simp [twoTo]

theorem cast_tenTo (exponent : Nat) : (tenTo exponent : ℚ) = 10 ^ exponent := by
  simp [tenTo]

theorem cast_twoTo_toNat {exponent : Int} (positive : 0 ≤ exponent) :
    (twoTo exponent.toNat : ℚ) = 2 ^ exponent := by
  rw [cast_twoTo, ← zpow_natCast, Int.toNat_of_nonneg positive]

theorem cast_twoTo_neg_toNat {exponent : Int} (negative : exponent < 0) :
    (twoTo (-exponent).toNat : ℚ) = (2 ^ exponent)⁻¹ := by
  rw [cast_twoTo_toNat (by omega), zpow_neg]

/-! The half-even quotient. -/

/-- The quotient lies within a half of the mantissa, and an odd mantissa lies closer. -/
structure NearestTo (mantissa numerator denominator : Nat) : Prop where
  low : 2 * mantissa * denominator ≤ 2 * numerator + denominator
  high : 2 * numerator ≤ 2 * mantissa * denominator + denominator
  tie : 2 * mantissa * denominator = 2 * numerator + denominator ∨
    2 * numerator = 2 * mantissa * denominator + denominator → mantissa % 2 = 0

theorem NearestTo.halfEven_eq {mantissa numerator denominator : Nat} (positive : 0 < denominator)
    (nearest : NearestTo mantissa numerator denominator) :
    halfEven numerator denominator = mantissa := by
  have whole : denominator * (numerator / denominator) + numerator % denominator = numerator :=
    Nat.div_add_mod numerator denominator
  have small : numerator % denominator < denominator := Nat.mod_lt _ positive
  obtain ⟨low, high, tie⟩ := nearest
  rw [halfEven]
  generalize numerator / denominator = quotient at *
  generalize numerator % denominator = rest at *
  have notAbove : quotient ≤ mantissa := by
    by_contra above
    have : denominator * (mantissa + 1) ≤ denominator * quotient :=
      Nat.mul_le_mul_left _ (by omega)
    nlinarith
  have notBelow : mantissa ≤ quotient + 1 := by
    by_contra below
    have : denominator * (quotient + 2) ≤ denominator * mantissa :=
      Nat.mul_le_mul_left _ (by omega)
    nlinarith
  have scaled : 2 * mantissa * denominator = 2 * (denominator * mantissa) := by ring
  -- The remainder says which of the two it is, and evenness where it lies in the middle.
  rcases (by omega : mantissa = quotient ∨ mantissa = quotient + 1) with rfl | rfl
  · have below : ¬denominator < 2 * rest := by omega
    by_cases exact : 2 * rest < denominator
    · simp [exact]
    · have even := tie (by omega)
      simp [exact, below, even]
  · have expand : denominator * (quotient + 1) = denominator * quotient + denominator := by ring
    have above : ¬2 * rest < denominator := by omega
    by_cases exact : denominator < 2 * rest
    · simp [above, exact]
    · have even := tie (by omega)
      simp only [above, exact, if_false]
      omega

/-! The order of a quotient. -/

theorem quotient_between {base numerator denominator : ℚ} {order otherOrder : Int}
    (basePositive : 0 < base) (low : base ^ order ≤ numerator)
    (high : numerator < base ^ (order + 1)) (otherLow : base ^ otherOrder ≤ denominator)
    (otherHigh : denominator < base ^ (otherOrder + 1)) :
    base ^ (order - otherOrder - 1) ≤ numerator / denominator ∧
      numerator / denominator < base ^ (order - otherOrder + 1) := by
  have positive : 0 < denominator := lt_of_lt_of_le (zpow_pos basePositive _) otherLow
  have notZero : base ≠ 0 := ne_of_gt basePositive
  constructor
  · rw [le_div_iff₀ positive]
    calc base ^ (order - otherOrder - 1) * denominator
      _ ≤ base ^ (order - otherOrder - 1) * base ^ (otherOrder + 1) :=
        mul_le_mul_of_nonneg_left otherHigh.le (zpow_pos basePositive _).le
      _ = base ^ order := by rw [← zpow_add₀ notZero]; congr 1; omega
      _ ≤ numerator := low
  · rw [div_lt_iff₀ positive]
    calc numerator
      _ < base ^ (order + 1) := high
      _ = base ^ (order - otherOrder + 1) * base ^ otherOrder := by
        rw [← zpow_add₀ notZero]; congr 1; omega
      _ ≤ base ^ (order - otherOrder + 1) * denominator :=
        mul_le_mul_of_nonneg_left otherLow (zpow_pos basePositive _).le

theorem log2_between {value : Nat} (positive : 0 < value) :
    (2 : ℚ) ^ (value.log2 : Int) ≤ value ∧ (value : ℚ) < 2 ^ ((value.log2 : Int) + 1) := by
  have low : 2 ^ value.log2 ≤ value := Nat.log2_self_le (by omega)
  have high : value < 2 ^ (value.log2 + 1) := Nat.lt_log2_self
  exact ⟨by exact_mod_cast low, by exact_mod_cast high⟩

theorem twoTo_reaches_iff (numerator : Nat) {denominator : Nat} (positive : 0 < denominator)
    (exponent : Int) :
    (if 0 ≤ exponent then denominator * twoTo exponent.toNat ≤ numerator
      else denominator ≤ numerator * twoTo (-exponent).toNat) ↔
      (2 : ℚ) ^ exponent ≤ numerator / denominator := by
  have castPositive : (0 : ℚ) < denominator := by exact_mod_cast positive
  rw [le_div_iff₀ castPositive]
  split
  · rename_i nonneg
    rw [← Nat.cast_le (α := ℚ), Nat.cast_mul, cast_twoTo_toNat nonneg, mul_comm]
  · rename_i negative
    have powerPositive : (0 : ℚ) < 2 ^ exponent := zpow_pos two_pos exponent
    rw [← Nat.cast_le (α := ℚ), Nat.cast_mul, cast_twoTo_neg_toNat (by omega),
      ← div_eq_mul_inv, le_div_iff₀ powerPositive, mul_comm]

theorem binaryOrder_bounds {numerator denominator : Nat} (positive : 0 < numerator)
    (denominatorPositive : 0 < denominator) :
    (2 : ℚ) ^ binaryOrder numerator denominator ≤ numerator / denominator ∧
      (numerator / denominator : ℚ) < 2 ^ (binaryOrder numerator denominator + 1) := by
  obtain ⟨low, high⟩ := log2_between positive
  obtain ⟨otherLow, otherHigh⟩ := log2_between denominatorPositive
  obtain ⟨above, below⟩ := quotient_between two_pos low high otherLow otherHigh
  have reaches := twoTo_reaches_iff numerator denominatorPositive
    ((numerator.log2 : Int) - denominator.log2)
  rw [binaryOrder]
  generalize (numerator.log2 : Int) - denominator.log2 = estimate at *
  by_cases reached : (2 : ℚ) ^ estimate ≤ numerator / denominator
  · rw [if_pos (reaches.mpr reached)]
    exact ⟨reached, below⟩
  · rw [if_neg (fun isReached => reached (reaches.mp isReached)), sub_add_cancel]
    exact ⟨above, lt_of_not_ge reached⟩

theorem binaryOrder_eq {numerator denominator : Nat} (positive : 0 < numerator)
    (denominatorPositive : 0 < denominator) {order : Int}
    (low : (2 : ℚ) ^ order ≤ numerator / denominator)
    (high : (numerator / denominator : ℚ) < 2 ^ (order + 1)) :
    binaryOrder numerator denominator = order := by
  obtain ⟨reached, notNext⟩ := binaryOrder_bounds positive denominatorPositive
  have below := (zpow_lt_zpow_iff_right₀ (one_lt_two (α := ℚ))).mp (lt_of_le_of_lt reached high)
  have above := (zpow_lt_zpow_iff_right₀ (one_lt_two (α := ℚ))).mp (lt_of_le_of_lt low notNext)
  omega

/-! Mantissas. -/

structure RoundsTo (value : ℚ) (mantissa : Nat) (exponent : Int) : Prop where
  low : (mantissa - 1 / 2) * 2 ^ exponent ≤ value
  high : value ≤ (mantissa + 1 / 2) * 2 ^ exponent
  tie : value = (mantissa - 1 / 2) * 2 ^ exponent ∨ value = (mantissa + 1 / 2) * 2 ^ exponent →
    mantissa % 2 = 0

theorem RoundsTo.nearestTo {mantissa numerator denominator : Nat} (positive : 0 < denominator)
    (rounds : RoundsTo (numerator / denominator) mantissa 0) :
    NearestTo mantissa numerator denominator := by
  have castPositive : (0 : ℚ) < denominator := by exact_mod_cast positive
  obtain ⟨low, high, tie⟩ := rounds
  rw [zpow_zero, mul_one] at low high
  rw [zpow_zero, mul_one, mul_one] at tie
  rw [le_div_iff₀ castPositive] at low
  rw [div_le_iff₀ castPositive] at high
  rw [div_eq_iff castPositive.ne', div_eq_iff castPositive.ne'] at tie
  refine ⟨?_, ?_, ?_⟩
  · have : (2 * mantissa * denominator : ℚ) ≤ 2 * numerator + denominator := by linarith
    exact_mod_cast this
  · have : (2 * numerator : ℚ) ≤ 2 * mantissa * denominator + denominator := by linarith
    exact_mod_cast this
  · rintro (atLow | atHigh)
    · have : (2 * mantissa * denominator : ℚ) = 2 * numerator + denominator := by
        exact_mod_cast atLow
      exact tie (.inl (by linarith))
    · have : (2 * numerator : ℚ) = 2 * mantissa * denominator + denominator := by
        exact_mod_cast atHigh
      exact tie (.inr (by linarith))

theorem RoundsTo.unscale {value : ℚ} {mantissa : Nat} {exponent : Int}
    (rounds : RoundsTo value mantissa exponent) :
    RoundsTo (value / 2 ^ exponent) mantissa 0 := by
  have positive : (0 : ℚ) < 2 ^ exponent := zpow_pos two_pos exponent
  obtain ⟨low, high, tie⟩ := rounds
  refine ⟨?_, ?_, ?_⟩
  · rw [zpow_zero, mul_one, le_div_iff₀ positive]
    exact low
  · rw [zpow_zero, mul_one, div_le_iff₀ positive]
    exact high
  · rw [zpow_zero, mul_one, mul_one, div_eq_iff positive.ne', div_eq_iff positive.ne']
    exact tie

theorem RoundsTo.halfEven_eq {numerator denominator mantissa : Nat} {exponent : Int}
    (positive : 0 < denominator)
    (rounds : RoundsTo (numerator / denominator) mantissa exponent) :
    (if 0 ≤ exponent then halfEven numerator (denominator * twoTo exponent.toNat)
      else halfEven (numerator * twoTo (-exponent).toNat) denominator) = mantissa := by
  have unscaled := rounds.unscale
  split
  · rename_i nonneg
    have scaledPositive : 0 < denominator * twoTo exponent.toNat :=
      Nat.mul_pos positive (twoTo_pos _)
    refine NearestTo.halfEven_eq scaledPositive (RoundsTo.nearestTo scaledPositive ?_)
    rw [Nat.cast_mul, cast_twoTo_toNat nonneg, ← div_div]
    exact unscaled
  · rename_i negative
    refine NearestTo.halfEven_eq positive (RoundsTo.nearestTo positive ?_)
    rw [Nat.cast_mul, cast_twoTo_neg_toNat (by omega), ← div_eq_mul_inv, div_right_comm]
    exact unscaled

/-! Magnitudes. -/

/-- A magnitude that no other mantissa and exponent stand for. -/
structure Scaled.Canonical (scaled : Scaled) : Prop where
  lowest : -1074 ≤ scaled.exponent
  bounded : scaled.mantissa < 2 * mantissaSpan
  subnormal : scaled.mantissa < mantissaSpan → scaled.exponent = -1074

theorem canonical_scaledOf (bits : Nat) : (scaledOf bits).Canonical := by
  have span : 0 < mantissaSpan := twoTo_pos 52
  rw [scaledOf]
  split
  · exact ⟨by simp, by dsimp only; omega, by simp⟩
  · rename_i normal
    have rest : bits % mantissaSpan < mantissaSpan := Nat.mod_lt _ span
    have atLeast : 1 ≤ bits / mantissaSpan := Nat.div_pos (by omega) span
    exact ⟨by dsimp only; omega, by dsimp only; omega, by dsimp only; omega⟩

theorem bits_scaledOf (bits : Nat) :
    ((scaledOf bits).exponent + 1074).toNat * mantissaSpan + (scaledOf bits).mantissa = bits := by
  have span : 0 < mantissaSpan := twoTo_pos 52
  rw [scaledOf]
  split
  · simp
  · rename_i normal
    have atLeast : 1 ≤ bits / mantissaSpan := Nat.div_pos (by omega) span
    have whole := Nat.div_add_mod bits mantissaSpan
    obtain ⟨before, same⟩ : ∃ before, bits / mantissaSpan = before + 1 :=
      ⟨bits / mantissaSpan - 1, by omega⟩
    have exponent : ((bits / mantissaSpan : Int) - 1075 + 1074).toNat = before := by
      rw [← Int.natCast_ediv, same]
      omega
    rw [same, Nat.mul_add, Nat.mul_comm] at whole
    simp only [exponent]
    omega

theorem mantissa_pos {bits : Nat} (positive : 0 < bits) : 0 < (scaledOf bits).mantissa := by
  have span : 0 < mantissaSpan := twoTo_pos 52
  rw [scaledOf]
  split
  · exact positive
  · exact Nat.add_pos_right _ span

def Scaled.reach (scaled : Scaled) : ℚ :=
  if scaled.mantissa = mantissaSpan ∧ -1074 < scaled.exponent then 1 / 4 else 1 / 2

structure Scaled.Holds (scaled : Scaled) (value : ℚ) : Prop where
  low : (scaled.mantissa - scaled.reach) * 2 ^ scaled.exponent ≤ value
  high : value ≤ (scaled.mantissa + 1 / 2) * 2 ^ scaled.exponent
  tie : value = (scaled.mantissa - scaled.reach) * 2 ^ scaled.exponent ∨
    value = (scaled.mantissa + 1 / 2) * 2 ^ scaled.exponent → scaled.mantissa % 2 = 0

theorem Scaled.reach_le (scaled : Scaled) : scaled.reach ≤ 1 / 2 := by
  rw [reach]
  split <;> norm_num

theorem Scaled.reach_pos (scaled : Scaled) : 0 < scaled.reach := by
  rw [reach]
  split <;> norm_num

theorem cast_mantissaSpan : (mantissaSpan : ℚ) = 2 ^ (52 : Int) := by
  rw [mantissaSpan, cast_twoTo]
  rfl

theorem Scaled.Holds.pos {scaled : Scaled} {value : ℚ} (holds : scaled.Holds value)
    (positive : 0 < scaled.mantissa) : 0 < value := by
  have atLeast : (1 : ℚ) ≤ scaled.mantissa := by exact_mod_cast positive
  have reach := scaled.reach_le
  have power : (0 : ℚ) < 2 ^ scaled.exponent := zpow_pos two_pos _
  exact lt_of_lt_of_le (mul_pos (by linarith) power) holds.low

theorem Scaled.Holds.roundsTo {scaled : Scaled} {value : ℚ} (holds : scaled.Holds value) :
    RoundsTo value scaled.mantissa scaled.exponent := by
  have reach := scaled.reach_le
  have power : (0 : ℚ) < 2 ^ scaled.exponent := zpow_pos two_pos _
  obtain ⟨low, high, tie⟩ := holds
  have lower : (scaled.mantissa - 1 / 2 : ℚ) * 2 ^ scaled.exponent ≤
      (scaled.mantissa - scaled.reach) * 2 ^ scaled.exponent :=
    mul_le_mul_of_nonneg_right (by linarith) power.le
  refine ⟨lower.trans low, high, ?_⟩
  rintro (atLow | atHigh)
  · exact tie (.inl (le_antisymm (atLow.trans_le lower) low))
  · exact tie (.inr atHigh)

theorem Scaled.Holds.lt_top {scaled : Scaled} (canonical : scaled.Canonical) {value : ℚ}
    (holds : scaled.Holds value) : value < 2 ^ (scaled.exponent + 52 + 1) := by
  have power : (0 : ℚ) < 2 ^ scaled.exponent := zpow_pos two_pos _
  have bounded : (scaled.mantissa + 1 : ℚ) ≤ 2 * mantissaSpan := by
    exact_mod_cast canonical.bounded
  calc value
    _ ≤ (scaled.mantissa + 1 / 2) * 2 ^ scaled.exponent := holds.high
    _ < 2 * mantissaSpan * 2 ^ scaled.exponent :=
      mul_lt_mul_of_pos_right (by linarith) power
    _ = 2 ^ (scaled.exponent + 52 + 1) := by
      rw [cast_mantissaSpan, zpow_add₀ two_ne_zero, zpow_add₀ two_ne_zero, zpow_one]
      ring

theorem Scaled.Holds.at_power {scaled : Scaled} (canonical : scaled.Canonical) {value : ℚ}
    (holds : scaled.Holds value) (normal : -1074 < scaled.exponent)
    (below : value < 2 ^ (scaled.exponent + 52)) :
    scaled.mantissa = mantissaSpan ∧ scaled.reach = 1 / 4 := by
  have power : (0 : ℚ) < 2 ^ scaled.exponent := zpow_pos two_pos _
  have atLeast : mantissaSpan ≤ scaled.mantissa := by
    by_contra small
    have := canonical.subnormal (by omega)
    omega
  have close : (scaled.mantissa - scaled.reach : ℚ) < mantissaSpan := by
    rw [zpow_add₀ two_ne_zero, ← cast_mantissaSpan, mul_comm] at below
    exact lt_of_mul_lt_mul_right (holds.low.trans_lt below) power.le
  have same : scaled.mantissa = mantissaSpan := by
    by_contra different
    have above : (mantissaSpan + 1 : ℚ) ≤ scaled.mantissa := by
      exact_mod_cast (by omega : mantissaSpan + 1 ≤ scaled.mantissa)
    have := scaled.reach_le
    linarith
  exact ⟨same, by rw [reach, if_pos ⟨same, normal⟩]⟩

theorem two_zpow_eq_twice (exponent : Int) : (2 : ℚ) ^ exponent = 2 * 2 ^ (exponent - 1) := by
  rw [zpow_sub_one₀ two_ne_zero]
  ring

/-- Below a power of two the numbers lie twice as close. -/
theorem Scaled.Holds.below_power {scaled : Scaled} {value : ℚ} (holds : scaled.Holds value)
    (mantissa : scaled.mantissa = mantissaSpan) (reach : scaled.reach = 1 / 4)
    (below : value < 2 ^ (scaled.exponent + 52)) :
    2 ^ (scaled.exponent + 51) ≤ value ∧
      RoundsTo value (2 * mantissaSpan) (scaled.exponent - 1) := by
  have power : (0 : ℚ) < 2 ^ (scaled.exponent - 1) := zpow_pos two_pos _
  have span : (1 : ℚ) ≤ mantissaSpan := by exact_mod_cast twoTo_pos 52
  have twice : ((2 * mantissaSpan : Nat) : ℚ) = 2 * mantissaSpan := by push_cast; rfl
  have low := holds.low
  rw [mantissa, reach, two_zpow_eq_twice] at low
  rw [zpow_add₀ two_ne_zero, ← cast_mantissaSpan, two_zpow_eq_twice] at below
  refine ⟨?_, ?_, ?_, ?_⟩
  · calc (2 : ℚ) ^ (scaled.exponent + 51)
      _ = mantissaSpan * 2 ^ (scaled.exponent - 1) := by
        rw [cast_mantissaSpan, ← zpow_add₀ two_ne_zero]
        congr 1
        omega
      _ ≤ (mantissaSpan - 1 / 4) * (2 * 2 ^ (scaled.exponent - 1)) := by nlinarith
      _ ≤ value := low
  · rw [twice]
    linarith
  · rw [twice]
    linarith
  · intro _
    exact Nat.mul_mod_right 2 mantissaSpan

theorem Scaled.Holds.rounds {scaled : Scaled} (canonical : scaled.Canonical)
    {numerator denominator : Nat} (positive : 0 < numerator) (denominatorPositive : 0 < denominator)
    (holds : scaled.Holds (numerator / denominator)) :
    ∃ mantissa exponent,
      max (binaryOrder numerator denominator - 52) (-1074) = exponent ∧
      RoundsTo (numerator / denominator) mantissa exponent ∧
      (exponent + 1074).toNat * mantissaSpan + mantissa =
        (scaled.exponent + 1074).toNat * mantissaSpan + scaled.mantissa := by
  have lowest := canonical.lowest
  have top := holds.lt_top canonical
  by_cases reached : (2 : ℚ) ^ (scaled.exponent + 52) ≤ numerator / denominator
  · have order := binaryOrder_eq positive denominatorPositive reached top
    exact ⟨scaled.mantissa, scaled.exponent, by omega, holds.roundsTo, rfl⟩
  have below : (numerator / denominator : ℚ) < 2 ^ (scaled.exponent + 52) := lt_of_not_ge reached
  by_cases normal : -1074 < scaled.exponent
  · obtain ⟨mantissa, reach⟩ := holds.at_power canonical normal below
    obtain ⟨low, rounds⟩ := holds.below_power mantissa reach below
    have next : scaled.exponent + 51 + 1 = scaled.exponent + 52 := by omega
    have order := binaryOrder_eq positive denominatorPositive low (next ▸ below)
    refine ⟨2 * mantissaSpan, scaled.exponent - 1, by omega, rounds, ?_⟩
    obtain ⟨before, same⟩ : ∃ before : Nat, scaled.exponent + 1074 = before + 1 :=
      ⟨(scaled.exponent + 1073).toNat, by omega⟩
    have less : scaled.exponent - 1 + 1074 = before := by omega
    rw [mantissa, same, less]
    simp only [Int.toNat_natCast, Int.toNat_natCast_add_one]
    ring
  · have order := binaryOrder_bounds positive denominatorPositive
    have lower := (zpow_lt_zpow_iff_right₀ (one_lt_two (α := ℚ))).mp (order.1.trans_lt below)
    exact ⟨scaled.mantissa, scaled.exponent, by omega, holds.roundsTo, rfl⟩

theorem nearestBits_eq {bits numerator denominator : Nat} (finite : bits < infinityBits)
    (positive : 0 < numerator) (denominatorPositive : 0 < denominator)
    (holds : (scaledOf bits).Holds (numerator / denominator)) :
    nearestBits numerator denominator = bits := by
  obtain ⟨mantissa, exponent, same, rounds, value⟩ :=
    holds.rounds (canonical_scaledOf bits) positive denominatorPositive
  rw [bits_scaledOf] at value
  rw [nearestBits, if_neg (by omega)]
  simp only [same, rounds.halfEven_eq denominatorPositive, value]
  exact Nat.min_eq_left (by omega)

end TableSieve.Number
