import TableSieve.Number.Reading
import TableSieve.Proofs.Digits
import TableSieve.Proofs.Rounding

/-!
Shortest digits name their number. Seventeen significant digits are finer than the numbers are
apart, so one of the tried grids has a decimal in the interval of the number; and a decimal in the
interval is read as the number.
-/

namespace TableSieve.Number

/-! Decimals. -/

def Decimal.value (decimal : Decimal) : ℚ :=
  decimal.digits * 10 ^ decimal.exponent

theorem timesTen_pos (value : Nat) (exponent : Int) : 0 < (timesTen value exponent).2 := by
  rw [timesTen]
  split
  · exact Nat.one_pos
  · exact tenTo_pos _

theorem timesTen_quotient (value : Nat) (exponent : Int) :
    ((timesTen value exponent).1 / (timesTen value exponent).2 : ℚ) = value * 10 ^ exponent := by
  rw [timesTen]
  split
  · rename_i nonneg
    simp only [Nat.cast_mul, cast_tenTo, Nat.cast_one, div_one]
    rw [← zpow_natCast, Int.toNat_of_nonneg nonneg]
  · rename_i negative
    simp only [cast_tenTo]
    rw [← zpow_natCast, Int.toNat_of_nonneg (by omega), zpow_neg, div_inv_eq_mul]

theorem timesTen_fst (value : Nat) (exponent : Int) :
    ((timesTen value exponent).1 : ℚ) = value * 10 ^ exponent * (timesTen value exponent).2 := by
  have positive : ((timesTen value exponent).2 : ℚ) ≠ 0 := by
    exact_mod_cast (timesTen_pos value exponent).ne'
  rw [← timesTen_quotient, div_mul_cancel₀ _ positive]

theorem digitsOf_bounds {value : Nat} (positive : 0 < value) :
    10 ^ (digitCount value - 1) ≤ value ∧ value < 10 ^ digitCount value ∧ 0 < digitCount value := by
  induction value using Nat.strongRecOn with
  | ind value ih =>
      rw [digitCount, digitsOf]
      split
      · rename_i small
        simp
        omega
      · rename_i large
        obtain ⟨low, high, some⟩ := ih (value / 10) (by omega) (by omega)
        rw [digitCount] at low high some
        obtain ⟨count, same⟩ : ∃ count, (digitsOf (value / 10)).length = count + 1 :=
          ⟨(digitsOf (value / 10)).length - 1, by omega⟩
        rw [same] at low high
        simp only [List.length_append, List.length_cons, List.length_nil, same,
          Nat.add_sub_cancel, Nat.zero_add, pow_succ] at low high ⊢
        omega

theorem digitCount_between {value : Nat} (positive : 0 < value) :
    (10 : ℚ) ^ ((digitCount value : Int) - 1) ≤ value ∧
      (value : ℚ) < 10 ^ ((digitCount value : Int) - 1 + 1) := by
  obtain ⟨low, high, some⟩ := digitsOf_bounds positive
  constructor
  · rw [show (digitCount value : Int) - 1 = (digitCount value - 1 : Nat) by omega, zpow_natCast]
    exact_mod_cast low
  · rw [sub_add_cancel, zpow_natCast]
    exact_mod_cast high

theorem decimalOrder_bounds {numerator denominator : Nat} (positive : 0 < numerator)
    (denominatorPositive : 0 < denominator) :
    (10 : ℚ) ^ decimalOrder numerator denominator ≤ numerator / denominator ∧
      (numerator / denominator : ℚ) < 10 ^ (decimalOrder numerator denominator + 1) := by
  obtain ⟨low, high⟩ := digitCount_between positive
  obtain ⟨otherLow, otherHigh⟩ := digitCount_between denominatorPositive
  obtain ⟨above, below⟩ := quotient_between (by norm_num) low high otherLow otherHigh
  rw [sub_sub_sub_cancel_right] at above below
  have castPositive : (0 : ℚ) < denominator := by exact_mod_cast denominatorPositive
  rw [decimalOrder]
  generalize (digitCount numerator : Int) - digitCount denominator = estimate at *
  have power : (0 : ℚ) < (timesTen denominator estimate).2 := by
    exact_mod_cast timesTen_pos denominator estimate
  have reaches : (timesTen denominator estimate).1 ≤ numerator * (timesTen denominator estimate).2 ↔
      (10 : ℚ) ^ estimate ≤ numerator / denominator := by
    rw [le_div_iff₀ castPositive, ← Nat.cast_le (α := ℚ), Nat.cast_mul, timesTen_fst,
      mul_le_mul_iff_left₀ power, mul_comm]
  by_cases reached : (10 : ℚ) ^ estimate ≤ numerator / denominator
  · rw [if_pos (reaches.mpr reached)]
    exact ⟨reached, below⟩
  · rw [if_neg (fun isReached => reached (reaches.mp isReached)), sub_add_cancel]
    exact ⟨above, lt_of_not_ge reached⟩

/-! Intervals. -/

theorem intervalOf_denominator_pos (scaled : Scaled) : 0 < (intervalOf scaled).denominator := by
  simp only [intervalOf]
  split
  · omega
  · exact Nat.mul_pos (by omega) (twoTo_pos _)

theorem quarters_quotient (quarters : Nat) (exponent : Int) :
    ((quarters * (if 0 ≤ exponent then twoTo exponent.toNat else 1) : Nat) : ℚ) /
      (if 0 ≤ exponent then 4 else 4 * twoTo (-exponent).toNat : Nat) =
        quarters / 4 * 2 ^ exponent := by
  split
  · rename_i nonneg
    rw [Nat.cast_mul, cast_twoTo_toNat nonneg]
    push_cast
    ring
  · rename_i negative
    rw [mul_one, Nat.cast_mul, cast_twoTo_neg_toNat (by omega)]
    have power : (2 : ℚ) ^ exponent ≠ 0 := (zpow_pos two_pos exponent).ne'
    push_cast
    field_simp

theorem intervalOf_low {scaled : Scaled} (positive : 0 < scaled.mantissa) :
    ((intervalOf scaled).low / (intervalOf scaled).denominator : ℚ) =
      (scaled.mantissa - scaled.reach) * 2 ^ scaled.exponent := by
  simp only [intervalOf, quarters_quotient, Scaled.reach]
  congr 1
  split
  · rw [Nat.cast_sub (by omega)]
    push_cast
    ring
  · rw [Nat.cast_sub (by omega)]
    push_cast
    ring

theorem intervalOf_high (scaled : Scaled) :
    ((intervalOf scaled).high / (intervalOf scaled).denominator : ℚ) =
      (scaled.mantissa + 1 / 2) * 2 ^ scaled.exponent := by
  simp only [intervalOf, quarters_quotient]
  congr 1
  push_cast
  ring

theorem intervalOf_value (scaled : Scaled) :
    ((intervalOf scaled).value / (intervalOf scaled).denominator : ℚ) =
      scaled.mantissa * 2 ^ scaled.exponent := by
  simp only [intervalOf, quarters_quotient]
  congr 1
  push_cast
  ring

section Comparing

variable {number unit : Nat} {decimal : Decimal}

theorem mul_le_decimal_iff (positive : 0 < unit) :
    number * (timesTen decimal.digits decimal.exponent).2 ≤
        (timesTen decimal.digits decimal.exponent).1 * unit ↔
      (number / unit : ℚ) ≤ decimal.value := by
  have unitPositive : (0 : ℚ) < unit := by exact_mod_cast positive
  have power : (0 : ℚ) < (timesTen decimal.digits decimal.exponent).2 := by
    exact_mod_cast timesTen_pos decimal.digits decimal.exponent
  rw [Decimal.value, ← timesTen_quotient, div_le_div_iff₀ unitPositive power]
  norm_cast

theorem decimal_mul_le_iff (positive : 0 < unit) :
    (timesTen decimal.digits decimal.exponent).1 * unit ≤
        number * (timesTen decimal.digits decimal.exponent).2 ↔
      decimal.value ≤ (number / unit : ℚ) := by
  have unitPositive : (0 : ℚ) < unit := by exact_mod_cast positive
  have power : (0 : ℚ) < (timesTen decimal.digits decimal.exponent).2 := by
    exact_mod_cast timesTen_pos decimal.digits decimal.exponent
  rw [Decimal.value, ← timesTen_quotient, div_le_div_iff₀ power unitPositive]
  norm_cast

end Comparing

theorem contains_iff {scaled : Scaled} (positive : 0 < scaled.mantissa) (decimal : Decimal) :
    (intervalOf scaled).contains decimal = true ↔ scaled.Holds decimal.value := by
  have unit := intervalOf_denominator_pos scaled
  have low := intervalOf_low positive
  have high := intervalOf_high scaled
  have closed : (intervalOf scaled).closed = decide (scaled.mantissa % 2 = 0) := rfl
  rw [Interval.contains]
  simp only [closed, decide_eq_true_eq]
  split
  · rename_i even
    simp only [Bool.and_eq_true, decide_eq_true_eq, mul_le_decimal_iff unit,
      decimal_mul_le_iff unit, low, high]
    exact ⟨fun ⟨atLeast, atMost⟩ => ⟨atLeast, atMost, fun _ => even⟩,
      fun holds => ⟨holds.low, holds.high⟩⟩
  · rename_i odd
    simp only [Bool.and_eq_true, decide_eq_true_eq, ← not_le, mul_le_decimal_iff unit,
      decimal_mul_le_iff unit, low, high]
    constructor
    · rintro ⟨above, below⟩
      refine ⟨(not_le.mp above).le, (not_le.mp below).le, ?_⟩
      rintro (atLow | atHigh)
      · exact absurd atLow.le above
      · exact absurd atHigh.ge below
    · rintro ⟨atLeast, atMost, tie⟩
      exact ⟨fun below => odd (tie (.inl (le_antisymm below atLeast))),
        fun above => odd (tie (.inr (le_antisymm atMost above)))⟩

/-! Grids. -/

theorem Scaled.Holds.of_between {scaled : Scaled} {value : ℚ}
    (above : (scaled.mantissa - scaled.reach) * 2 ^ scaled.exponent < value)
    (below : value < (scaled.mantissa + 1 / 2) * 2 ^ scaled.exponent) : scaled.Holds value where
  low := above.le
  high := below.le
  tie := by
    rintro (atLow | atHigh)
    · exact absurd atLow above.ne'
    · exact absurd atHigh below.ne

theorem cut_bounds {interval : Interval} (positive : 0 < interval.denominator) (exponent : Int) :
    (interval.cut exponent).value ≤ interval.value / interval.denominator ∧
      (interval.value / interval.denominator : ℚ) <
        ((interval.cut exponent).digits + 1) * 10 ^ exponent := by
  have denominator : (0 : ℚ) < interval.denominator := by exact_mod_cast positive
  have power : (0 : ℚ) < 10 ^ exponent := zpow_pos (by norm_num) exponent
  have unit : (0 : ℚ) < (timesTen interval.denominator exponent).2 := by
    exact_mod_cast timesTen_pos interval.denominator exponent
  have fst := timesTen_fst interval.denominator exponent
  have fstPositive : 0 < (timesTen interval.denominator exponent).1 := by
    have : (0 : ℚ) < (timesTen interval.denominator exponent).1 := by
      rw [fst]
      positivity
    exact_mod_cast this
  have low := Nat.div_mul_le_self
    (interval.value * (timesTen interval.denominator exponent).2)
    (timesTen interval.denominator exponent).1
  have high := Nat.lt_div_mul_add
    (a := interval.value * (timesTen interval.denominator exponent).2) fstPositive
  have digits : (interval.cut exponent).digits =
      interval.value * (timesTen interval.denominator exponent).2 /
        (timesTen interval.denominator exponent).1 := rfl
  rw [← digits] at low high
  rw [← Nat.cast_le (α := ℚ), Nat.cast_mul, Nat.cast_mul, fst] at low
  rw [← Nat.cast_lt (α := ℚ), Nat.cast_add, Nat.cast_mul, Nat.cast_mul, fst] at high
  rw [le_div_iff₀ denominator, div_lt_iff₀ denominator, Decimal.value]
  have sameExponent : (interval.cut exponent).exponent = exponent := rfl
  rw [sameExponent]
  constructor
  · refine le_of_mul_le_mul_right ?_ unit
    linarith
  · refine lt_of_mul_lt_mul_right ?_ unit.le
    linarith

theorem contains_of_onGrid? {tie : Tie} {interval : Interval} {exponent : Int} {decimal : Decimal}
    (found : interval.onGrid? tie exponent = some decimal) : interval.contains decimal = true := by
  rw [Interval.onGrid?] at found
  split at found
  · rename_i below _
    cases found
    exact below
  · rename_i _ above
    cases found
    exact above
  · cases found
  · rename_i below above
    dsimp only at found
    split at found
    · cases found
      exact below
    · cases found
      exact above

theorem isSome_onGrid? {tie : Tie} {interval : Interval} {exponent : Int}
    (named : interval.contains (interval.cut exponent) = true ∨
      interval.contains ⟨(interval.cut exponent).digits + 1, exponent⟩ = true) :
    (interval.onGrid? tie exponent).isSome = true := by
  rw [Interval.onGrid?]
  split
  · rfl
  · rfl
  · rename_i noBelow noAbove
    simp [noBelow, noAbove] at named
  · dsimp only
    split <;> rfl

theorem exists_onGrid {scaled : Scaled} (positive : 0 < scaled.mantissa) {tie : Tie}
    {exponent : Int} (fine : (10 : ℚ) ^ exponent < (scaled.reach + 1 / 2) * 2 ^ scaled.exponent) :
    ((intervalOf scaled).onGrid? tie exponent).isSome = true := by
  have power : (0 : ℚ) < 2 ^ scaled.exponent := zpow_pos two_pos _
  have reach := mul_pos scaled.reach_pos power
  obtain ⟨below, above⟩ := cut_bounds (intervalOf_denominator_pos scaled) exponent
  rw [intervalOf_value] at below above
  refine isSome_onGrid? ?_
  rw [contains_iff positive, contains_iff positive]
  have next : (Decimal.mk (((intervalOf scaled).cut exponent).digits + 1) exponent).value =
      ((intervalOf scaled).cut exponent).value + 10 ^ exponent := by
    have sameExponent : ((intervalOf scaled).cut exponent).exponent = exponent := rfl
    rw [Decimal.value, Decimal.value, sameExponent]
    push_cast
    ring
  have aboveNext : (scaled.mantissa : ℚ) * 2 ^ scaled.exponent <
      ((intervalOf scaled).cut exponent).value + 10 ^ exponent := by
    rw [← next, Decimal.value]
    push_cast
    exact above
  -- Where the point below the number is too low, the next one is still not too high.
  by_cases inside : (scaled.mantissa - scaled.reach) * 2 ^ scaled.exponent <
      ((intervalOf scaled).cut exponent).value
  · exact .inl (.of_between inside (by linarith))
  · refine .inr (.of_between ?_ ?_)
    · rw [next]
      linarith
    · rw [next]
      linarith

/-- Seventeen digits leave less than a ten to the sixteenth of the number between neighbours. -/
theorem fine_at_seventeen {scaled : Scaled} (canonical : scaled.Canonical) {order : Int}
    (reached : (10 : ℚ) ^ order ≤ scaled.mantissa * 2 ^ scaled.exponent) :
    (10 : ℚ) ^ (order + 1 - (17 : Nat)) < (scaled.reach + 1 / 2) * 2 ^ scaled.exponent := by
  have power : (0 : ℚ) < 2 ^ scaled.exponent := zpow_pos two_pos _
  have few : (scaled.mantissa : ℚ) / 10 ^ 16 < scaled.reach + 1 / 2 := by
    rw [Scaled.reach]
    split
    · rename_i atPower
      rw [atPower.1, cast_mantissaSpan]
      norm_num
    · have bounded : (scaled.mantissa : ℚ) < 2 * mantissaSpan := by
        exact_mod_cast canonical.bounded
      have span : (mantissaSpan : ℚ) = 4503599627370496 := by
        rw [cast_mantissaSpan]
        norm_num
      linarith
  calc (10 : ℚ) ^ (order + 1 - (17 : Nat))
    _ = 10 ^ order / 10 ^ 16 := by
      rw [show order + 1 - (17 : Nat) = order - 16 by omega, zpow_sub₀ (by norm_num)]
      norm_num
    _ ≤ scaled.mantissa * 2 ^ scaled.exponent / 10 ^ 16 := by
      exact div_le_div_of_nonneg_right reached (by norm_num)
    _ = scaled.mantissa / 10 ^ 16 * 2 ^ scaled.exponent := by ring
    _ < (scaled.reach + 1 / 2) * 2 ^ scaled.exponent := mul_lt_mul_of_pos_right few power

theorem contains_shortestFrom {tie : Tie} {interval : Interval} {order : Int} {fuel places : Nat}
    {last : Nat} (starts : places ≤ last) (ends : last < places + fuel)
    (hit : (interval.onGrid? tie (order + 1 - last)).isSome = true) :
    interval.contains (interval.shortestFrom tie order fuel places) = true := by
  -- Up to the last number of places the search may stop earlier, but only in the interval as well.
  induction fuel generalizing places with
  | zero => omega
  | succ fuel ih =>
      rw [Interval.shortestFrom]
      split
      · rename_i decimal found
        exact contains_of_onGrid? found
      · rename_i missed
        have later : places ≠ last := by
          rintro rfl
          rw [missed] at hit
          cases hit
        exact ih (by omega) (by omega)

theorem holds_shortest {bits : Nat} (positive : 0 < bits) (tie : Tie) :
    (scaledOf bits).Holds (shortest tie bits).value := by
  have mantissa := mantissa_pos positive
  have unit := intervalOf_denominator_pos (scaledOf bits)
  have value := intervalOf_value (scaledOf bits)
  have valuePositive : 0 < (intervalOf (scaledOf bits)).value := by
    simp only [intervalOf]
    split
    · exact Nat.mul_pos (by omega) (twoTo_pos _)
    · omega
  obtain ⟨reached, _⟩ := decimalOrder_bounds valuePositive unit
  rw [value] at reached
  rw [← contains_iff mantissa, shortest]
  exact contains_shortestFrom (by omega : 1 ≤ 17) (by omega)
    (exists_onGrid mantissa (fine_at_seventeen (canonical_scaledOf bits) reached))

/-! Reading. -/

theorem Decimal.value_between {decimal : Decimal} (positive : 0 < decimal.digits) :
    (10 : ℚ) ^ (decimal.exponent + digitCount decimal.digits - 1) ≤ decimal.value ∧
      decimal.value < 10 ^ (decimal.exponent + digitCount decimal.digits) := by
  have power : (0 : ℚ) < 10 ^ decimal.exponent := zpow_pos (by norm_num) _
  obtain ⟨low, high⟩ := digitCount_between positive
  rw [Decimal.value]
  constructor
  · calc (10 : ℚ) ^ (decimal.exponent + digitCount decimal.digits - 1)
      _ = 10 ^ ((digitCount decimal.digits : Int) - 1) * 10 ^ decimal.exponent := by
        rw [← zpow_add₀ (by norm_num)]
        congr 1
        omega
      _ ≤ decimal.digits * 10 ^ decimal.exponent := mul_le_mul_of_nonneg_right low power.le
  · calc (decimal.digits * 10 ^ decimal.exponent : ℚ)
      _ < 10 ^ ((digitCount decimal.digits : Int) - 1 + 1) * 10 ^ decimal.exponent :=
        mul_lt_mul_of_pos_right high power
      _ = 10 ^ (decimal.exponent + digitCount decimal.digits) := by
        rw [← zpow_add₀ (by norm_num)]
        congr 1
        omega

theorem two_zpow_le_ten_zpow {exponent : Int} (nonneg : 0 ≤ exponent) :
    (2 : ℚ) ^ (3 * exponent) ≤ 10 ^ exponent := by
  rw [zpow_mul]
  exact zpow_le_zpow_left₀ nonneg (by norm_num) (by norm_num)

theorem ten_zpow_le_two_zpow {exponent : Int} (nonpos : exponent ≤ 0) :
    (10 : ℚ) ^ exponent ≤ 2 ^ (3 * exponent) := by
  have inverse := inv_anti₀ (zpow_pos two_pos _)
    (two_zpow_le_ten_zpow (by omega : 0 ≤ -exponent))
  rwa [← zpow_neg, ← zpow_neg, neg_neg, mul_neg, neg_neg] at inverse

theorem exponent_scaledOf_le {bits : Nat} (finite : bits < infinityBits) :
    (scaledOf bits).exponent ≤ 971 := by
  have quotient : bits / mantissaSpan < 2047 := by
    have span : 0 < mantissaSpan := twoTo_pos 52
    rw [Nat.div_lt_iff_lt_mul span]
    exact finite
  rw [scaledOf]
  split
  · simp
  · dsimp only
    omega

theorem Scaled.Holds.order_between {bits : Nat} (positive : 0 < bits)
    (finite : bits < infinityBits) {decimal : Decimal}
    (holds : (scaledOf bits).Holds decimal.value) (some : 0 < decimal.digits) :
    -400 ≤ decimal.exponent + digitCount decimal.digits ∧
      decimal.exponent + digitCount decimal.digits ≤ 400 := by
  have mantissa : (1 : ℚ) ≤ (scaledOf bits).mantissa := by exact_mod_cast mantissa_pos positive
  have reach := (scaledOf bits).reach_le
  have lowest := (canonical_scaledOf bits).lowest
  have highest := exponent_scaledOf_le finite
  obtain ⟨low, high⟩ := decimal.value_between some
  constructor
  · by_contra tiny
    have power : (0 : ℚ) < 2 ^ (scaledOf bits).exponent := zpow_pos two_pos _
    have above : (2 : ℚ) ^ (-1075 : Int) ≤ decimal.value := by
      calc (2 : ℚ) ^ (-1075 : Int)
        _ ≤ 2 ^ ((scaledOf bits).exponent - 1) := zpow_le_zpow_right₀ one_le_two (by omega)
        _ = 1 / 2 * 2 ^ (scaledOf bits).exponent := by
          rw [zpow_sub_one₀ two_ne_zero]
          ring
        _ ≤ ((scaledOf bits).mantissa - (scaledOf bits).reach) * 2 ^ (scaledOf bits).exponent :=
          mul_le_mul_of_nonneg_right (by linarith) power.le
        _ ≤ decimal.value := holds.low
    have below := high.trans_le (ten_zpow_le_two_zpow (by omega))
    have := (zpow_lt_zpow_iff_right₀ (one_lt_two : (1 : ℚ) < 2)).mp (above.trans_lt below)
    omega
  · by_contra huge
    have top := holds.lt_top (canonical_scaledOf bits)
    have above := (two_zpow_le_ten_zpow (by omega)).trans low
    have := (zpow_lt_zpow_iff_right₀ (one_lt_two : (1 : ℚ) < 2)).mp (above.trans_lt top)
    omega

theorem toFloat_eq {bits : Nat} (positive : 0 < bits) (finite : bits < infinityBits)
    {decimal : Decimal} (holds : (scaledOf bits).Holds decimal.value) (negative : Bool) :
    decimal.toFloat negative = ofMagnitude negative bits := by
  have valuePositive := holds.pos (mantissa_pos positive)
  have some : 0 < decimal.digits := by
    rcases Nat.eq_zero_or_pos decimal.digits with none | some
    · rw [Decimal.value, none] at valuePositive
      simp at valuePositive
    · exact some
  obtain ⟨notTiny, notHuge⟩ := holds.order_between positive finite some
  have quotient := timesTen_quotient decimal.digits decimal.exponent
  have unit := timesTen_pos decimal.digits decimal.exponent
  have sidePositive : 0 < (timesTen decimal.digits decimal.exponent).1 := by
    rcases Nat.eq_zero_or_pos (timesTen decimal.digits decimal.exponent).1 with none | some
    · rw [none, ← Decimal.value] at quotient
      rw [← quotient] at valuePositive
      simp at valuePositive
    · exact some
  have nearest := nearestBits_eq finite sidePositive unit (quotient ▸ holds)
  rw [Decimal.toFloat]
  simp only [ofRatio, nearest]
  rw [if_neg (by omega), if_neg (by omega)]

end TableSieve.Number
