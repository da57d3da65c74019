import Mathlib
import TableSieve.Proofs.DecimalText
import TableSieve.Proofs.ShortestDigits

/-!
Numbers in writing read back. A layout only moves the point among the shortest digits, so what it
writes is a decimal in the interval of the number.
-/

namespace TableSieve.Number

open TableSieve.Text

namespace DecimalText

def positional (keepsPoint : Bool) (digits : List Char) (order : Int) : DecimalText :=
  if order < 0 then ⟨['0'], List.replicate (-order - 1).toNat '0' ++ digits, [], []⟩
  else
    let whole := order.toNat + 1
    if digits.length ≤ whole then
      ⟨digits ++ List.replicate (whole - digits.length) '0', if keepsPoint then ['0'] else [],
        [], []⟩
    else ⟨digits.take whole, digits.drop whole, [], []⟩

def scientific (signsExponent : Bool) (digits : List Char) (order : Int) : DecimalText :=
  ⟨digits.take 1, digits.drop 1,
    if order < 0 then ['-'] else if signsExponent then ['+'] else [], digitsOf order.natAbs⟩

variable {digits : List Char}

theorem chars_positional (keepsPoint : Bool) (some : digits ≠ []) (order : Int) :
    (positional keepsPoint digits order).chars = positionalChars keepsPoint digits order := by
  rw [positional, positionalChars]
  split
  · simp [chars, fractionChars, exponentChars, some]
  · dsimp only
    split
    · cases keepsPoint <;> simp [chars, fractionChars, exponentChars]
    · rename_i long
      have rest : digits.drop (order.toNat + 1) ≠ [] := by
        rw [ne_eq, List.drop_eq_nil_iff]
        exact long
      simp [chars, fractionChars, exponentChars, rest]

theorem chars_scientific (signsExponent : Bool) (some : digits ≠ []) (order : Int) :
    (scientific signsExponent digits order).chars =
      Number.exponentChars signsExponent digits order := by
  have power := digitsOf_ne_nil order.natAbs
  obtain ⟨first, rest, rfl⟩ := List.exists_cons_of_ne_nil some
  have sign : (if order < 0 then ['-'] else if signsExponent = true then ['+'] else []) ++
      digitsOf order.natAbs =
      (if (signsExponent && decide (0 ≤ order)) = true then ['+'] else []) ++ intChars order := by
    rw [intChars]
    by_cases negative : order < 0
    · have notNonneg : ¬0 ≤ order := by omega
      simp [negative, notNonneg]
    · have nonneg : 0 ≤ order := by omega
      simp [negative, nonneg]
  cases rest with
  | nil =>
      simp only [Number.exponentChars, ← sign]
      simp [scientific, chars, fractionChars, DecimalText.exponentChars, power]
  | cons next more =>
      simp only [Number.exponentChars, ← sign]
      simp [scientific, chars, fractionChars, DecimalText.exponentChars, power]

theorem proper_positional (keepsPoint : Bool) (some : digits ≠ [])
    (allDigits : ∀ c ∈ digits, isAsciiDigit c = true) (order : Int) :
    (positional keepsPoint digits order).Proper := by
  have zero : isAsciiDigit '0' = true := by decide
  have zeros : ∀ count, ∀ c ∈ List.replicate count '0', isAsciiDigit c = true := by
    intro count c member
    rw [List.eq_of_mem_replicate member]
    exact zero
  rw [positional]
  split
  · exact ⟨by simp, by simpa using zero, List.forall_mem_append.mpr ⟨zeros _, allDigits⟩,
      by simp, .inl rfl⟩
  · dsimp only
    split
    · refine ⟨by simp [some], List.forall_mem_append.mpr ⟨allDigits, zeros _⟩, ?_, by simp,
        .inl rfl⟩
      cases keepsPoint <;> simp [zero]
    · exact ⟨by simp [some], fun c member => allDigits c (List.mem_of_mem_take member),
        fun c member => allDigits c (List.mem_of_mem_drop member), by simp, .inl rfl⟩

theorem proper_scientific (signsExponent : Bool) (some : digits ≠ [])
    (allDigits : ∀ c ∈ digits, isAsciiDigit c = true) (order : Int) :
    (scientific signsExponent digits order).Proper where
  starts := by simp [scientific, some]
  wholeDigits := fun c member => allDigits c (List.mem_of_mem_take member)
  fractionDigits := fun c member => allDigits c (List.mem_of_mem_drop member)
  powerDigits := fun c member => isAsciiDigit_of_mem_digitsOf member
  signed := by
    rw [scientific]
    dsimp only
    split
    · exact .inr (.inr rfl)
    · split
      · exact .inr (.inl rfl)
      · exact .inl rfl

theorem valueOf_nil : valueOf [] = 0 :=
  rfl

theorem exponent_of_unsigned {text : DecimalText} (unsigned : text.sign = []) :
    text.exponent = valueOf text.power := by
  rw [exponent, unsigned, if_neg (by simp)]

theorem value_zeros_after (digits : List Char) (count : Nat) (exponent : Int) :
    (Decimal.mk (valueOf (digits ++ List.replicate count '0')) (exponent - count)).value =
      valueOf digits * 10 ^ exponent := by
  rw [Decimal.value, valueOf_append, valueOf_replicate_zero, List.length_replicate]
  push_cast
  rw [add_zero, mul_assoc, ← zpow_natCast, ← zpow_add₀ (by norm_num)]
  congr 2
  omega

theorem value_positional (keepsPoint : Bool) (digits : List Char) (order : Int) :
    (positional keepsPoint digits order).decimal.value =
      valueOf digits * 10 ^ (order + 1 - digits.length) := by
  rw [positional]
  split
  · rename_i negative
    have zeros : valueOf (['0'] ++ (List.replicate (-order - 1).toNat '0' ++ digits)) =
        valueOf digits := by
      rw [← List.append_assoc, List.singleton_append, ← List.replicate_succ, valueOf_append,
        valueOf_replicate_zero, Nat.zero_mul, Nat.zero_add]
    simp only [decimal, zeros, exponent_of_unsigned, Decimal.value, valueOf_nil,
      List.length_append, List.length_replicate]
    congr 2
    omega
  · rename_i nonneg
    dsimp only
    split
    · rename_i short
      have point : ∀ {point : List Char}, point = (if keepsPoint then ['0'] else []) →
          point = List.replicate point.length '0' := by
        rintro _ rfl
        cases keepsPoint <;> rfl
      simp only [decimal, exponent_of_unsigned]
      generalize same : (if keepsPoint = true then ['0'] else []) = fraction
      rw [point same.symm, List.append_assoc, ← List.replicate_add]
      have moved := value_zeros_after digits
        (order.toNat + 1 - digits.length + fraction.length) (order + 1 - digits.length)
      rw [← moved]
      congr 2
      simp only [valueOf_nil, List.length_replicate]
      omega
    · rename_i long
      simp only [decimal, exponent_of_unsigned, List.take_append_drop, Decimal.value, valueOf_nil,
        List.length_drop]
      congr 2
      omega

theorem exponent_scientific (signsExponent : Bool) (digits : List Char) (order : Int) :
    (scientific signsExponent digits order).exponent = order := by
  rw [exponent, scientific]
  dsimp only
  rw [valueOf_digitsOf]
  by_cases negative : order < 0
  · rw [if_pos negative, if_pos rfl]
    omega
  · rw [if_neg negative, if_neg (by cases signsExponent <;> simp)]
    omega

theorem value_scientific (signsExponent : Bool) (some : digits ≠ []) (order : Int) :
    (scientific signsExponent digits order).decimal.value =
      valueOf digits * 10 ^ (order + 1 - digits.length) := by
  have length := List.length_pos_iff.mpr some
  rw [decimal, exponent_scientific]
  simp only [scientific, List.take_append_drop, Decimal.value, List.length_drop]
  congr 2
  omega

end DecimalText

/-! Layouts. -/

theorem exists_stripZeros (digits : List Char) :
    ∃ count, digits = stripZeros digits ++ List.replicate count '0' := by
  have cut := List.takeWhile_append_dropWhile (p := (· == '0')) (l := digits.reverse)
  have zeros : ∀ c ∈ (digits.reverse.takeWhile (· == '0')).reverse, c = '0' := by
    intro c member
    simpa using List.all_eq_true.mp List.all_takeWhile c (List.mem_reverse.mp member)
  refine ⟨(digits.reverse.takeWhile (· == '0')).reverse.length, ?_⟩
  rw [← List.eq_replicate_of_mem zeros, stripZeros, ← List.reverse_append, cut,
    List.reverse_reverse]

theorem value_significant (decimal : Decimal) :
    (valueOf (significant decimal).1 : ℚ) *
      10 ^ ((significant decimal).2 + 1 - (significant decimal).1.length) = decimal.value := by
  obtain ⟨count, same⟩ := exists_stripZeros (digitsOf decimal.digits)
  have length := congrArg List.length same
  rw [List.length_append, List.length_replicate] at length
  have moved := DecimalText.value_zeros_after (stripZeros (digitsOf decimal.digits)) count
    (decimal.exponent + count)
  rw [← same, valueOf_digitsOf, add_sub_cancel_right] at moved
  calc (valueOf (significant decimal).1 : ℚ) *
        10 ^ ((significant decimal).2 + 1 - (significant decimal).1.length)
    _ = valueOf (stripZeros (digitsOf decimal.digits)) * 10 ^ (decimal.exponent + count) := by
      simp only [significant]
      congr 2
      omega
    _ = decimal.value := moved.symm

theorem significant_digits {decimal : Decimal} (positive : 0 < decimal.digits) :
    (significant decimal).1 ≠ [] ∧ ∀ c ∈ (significant decimal).1, isAsciiDigit c = true := by
  obtain ⟨count, same⟩ := exists_stripZeros (digitsOf decimal.digits)
  constructor
  · intro none
    have zero : valueOf (digitsOf decimal.digits) = 0 := by
      rw [same, show stripZeros (digitsOf decimal.digits) = [] from none, List.nil_append,
        valueOf_replicate_zero]
    rw [valueOf_digitsOf] at zero
    omega
  · intro c member
    have inside : c ∈ stripZeros (digitsOf decimal.digits) := member
    have whole : c ∈ digitsOf decimal.digits := by
      rw [same]
      exact List.mem_append_left _ inside
    exact isAsciiDigit_of_mem_digitsOf whole

def Layout.magnitudeText (layout : Layout) (bits : Nat) : DecimalText :=
  if bits = 0 then .positional layout.keepsPoint ['0'] 0
  else
    let parts := significant (shortest layout.tie bits)
    if layout.positional parts.2 then .positional layout.keepsPoint parts.1 parts.2
    else .scientific layout.signsExponent parts.1 parts.2

theorem digits_shortest_pos {bits : Nat} (positive : 0 < bits) (tie : Tie) :
    0 < (shortest tie bits).digits := by
  have valuePositive := (holds_shortest positive tie).pos (mantissa_pos positive)
  rcases Nat.eq_zero_or_pos (shortest tie bits).digits with none | some
  · rw [Decimal.value, none] at valuePositive
    simp at valuePositive
  · exact some

namespace Layout

variable (layout : Layout) (bits : Nat)

theorem chars_magnitudeText :
    (layout.magnitudeText bits).chars = layout.magnitudeChars bits := by
  rw [magnitudeText, magnitudeChars]
  split
  · exact DecimalText.chars_positional _ (by simp) _
  · rename_i notZero
    have positive : 0 < bits := Nat.pos_of_ne_zero notZero
    have some := (significant_digits (digits_shortest_pos positive layout.tie)).1
    dsimp only
    split
    · exact DecimalText.chars_positional _ some _
    · exact DecimalText.chars_scientific _ some _

theorem proper_magnitudeText : (layout.magnitudeText bits).Proper := by
  rw [magnitudeText]
  split
  · exact DecimalText.proper_positional _ (by simp) (by simp [isAsciiDigit]) _
  · rename_i notZero
    have positive : 0 < bits := Nat.pos_of_ne_zero notZero
    obtain ⟨some, digits⟩ := significant_digits (digits_shortest_pos positive layout.tie)
    dsimp only
    split
    · exact DecimalText.proper_positional _ some digits _
    · exact DecimalText.proper_scientific _ some digits _

theorem value_magnitudeText (positive : 0 < bits) :
    (layout.magnitudeText bits).decimal.value = (shortest layout.tie bits).value := by
  have some := (significant_digits (digits_shortest_pos positive layout.tie)).1
  rw [magnitudeText, if_neg (by omega), ← value_significant (shortest layout.tie bits)]
  dsimp only
  split
  · exact DecimalText.value_positional _ _ _
  · exact DecimalText.value_scientific _ some _

theorem toFloat_magnitudeText (finite : bits < infinityBits) (negative : Bool) :
    (layout.magnitudeText bits).decimal.toFloat negative = ofMagnitude negative bits := by
  rcases Nat.eq_zero_or_pos bits with rfl | positive
  · have zero : (layout.magnitudeText 0).decimal.digits = 0 := by
      rw [magnitudeText, if_pos rfl]
      cases layout.keepsPoint <;> decide
    rw [Decimal.toFloat]
    simp [zero]
  · refine toFloat_eq positive finite ?_ negative
    rw [layout.value_magnitudeText bits positive]
    exact holds_shortest positive layout.tie

end Layout

theorem ofMagnitude_magnitudeBits (value : Float) :
    ofMagnitude (isNegative value) (magnitudeBits value) = value := by
  have bounded : value.toBits.toNat < 2 * signBit := value.toBits.toNat_lt
  have bits : (if isNegative value then signBit else 0) + magnitudeBits value =
      value.toBits.toNat := by
    rw [isNegative, magnitudeBits]
    by_cases negative : signBit ≤ value.toBits.toNat
    · rw [if_pos (by simpa using negative), Nat.mod_eq_sub_mod negative,
        Nat.mod_eq_of_lt (by omega)]
      omega
    · rw [if_neg (by simpa using negative), Nat.mod_eq_of_lt (by omega)]
      omega
  rw [ofMagnitude, bits, UInt64.ofNat_toNat, Float.ofBits_toBits]

theorem readMagnitude?_of_readDecimal? {chars : List Char} {decimal : Decimal}
    (reads : readDecimal? chars = some decimal) (negative : Bool) :
    readMagnitude? negative chars = some (decimal.toFloat negative) := by
  rw [readMagnitude?, reads]

namespace DecimalText

variable {text : DecimalText}

theorem Proper.exists_chars (proper : text.Proper) :
    ∃ c rest, text.chars = c :: rest ∧ isAsciiDigit c = true := by
  obtain ⟨c, rest, same⟩ := List.exists_cons_of_ne_nil proper.starts
  have digit := proper.wholeDigits c (by simp [same])
  exact ⟨c, rest ++ (text.fractionChars ++ text.exponentChars), by simp [chars, same], digit⟩

theorem readFloat?_chars (proper : text.Proper) :
    readFloat? text.chars = some (text.decimal.toFloat false) := by
  obtain ⟨c, rest, same, digit⟩ := proper.exists_chars
  obtain ⟨notPlus, notMinus⟩ := not_isAsciiDigit_sign digit
  have reads := readMagnitude?_of_readDecimal? (readDecimal?_chars proper) false
  rw [same] at reads ⊢
  unfold readFloat?
  split
  · simp_all
  · simp_all
  · exact reads

end DecimalText

theorem Layout.chars_eq (layout : Layout) {value : Float} (finite : isFinite value = true) :
    layout.chars value =
      if isNegative value then '-' :: (layout.magnitudeText (magnitudeBits value)).chars
      else (layout.magnitudeText (magnitudeBits value)).chars := by
  have number : isNaN value = false := by
    have bounded : magnitudeBits value < infinityBits := by simpa [isFinite] using finite
    rw [isNaN, decide_eq_false_iff_not]
    omega
  rw [chars, if_neg (by simp [number])]
  simp only [finite, if_true, layout.chars_magnitudeText]

theorem Layout.readFloat?_chars (layout : Layout) {value : Float}
    (finite : isFinite value = true) : readFloat? (layout.chars value) = some value := by
  have bounded : magnitudeBits value < infinityBits := by simpa [isFinite] using finite
  have proper := layout.proper_magnitudeText (magnitudeBits value)
  have magnitude := layout.toFloat_magnitudeText (magnitudeBits value) bounded
  have same := ofMagnitude_magnitudeBits value
  rw [layout.chars_eq finite]
  cases negative : isNegative value with
  | true =>
      rw [if_pos rfl, readFloat?,
        readMagnitude?_of_readDecimal? (DecimalText.readDecimal?_chars proper),
        magnitude, ← negative, same]
  | false =>
      rw [if_neg (by simp), DecimalText.readFloat?_chars proper, magnitude, ← negative, same]

/-! Whole numbers. -/

theorem int64?_eq_some_iff {value : Int} {number : Int64} :
    int64? value = some number ↔ number.toInt = value := by
  unfold int64?
  constructor
  · intro fits
    split at fits
    · cases fits
      exact Int64.toInt_ofInt_of_le (by omega) (by omega)
    · cases fits
  · intro same
    have low := number.le_toInt
    have high := number.toInt_lt
    rw [if_pos (by omega), ← same, Int64.ofInt_toInt]

theorem readInt64?_intChars (value : Int64) : readInt64? (intChars value.toInt) = some value := by
  rw [readInt64?, readInt?_intChars, Option.bind_some, int64?_eq_some_iff]

theorem readInt?_eq_none_of_mem {chars : List Char} {c : Char} (member : c ∈ chars)
    (noDigit : isAsciiDigit c = false) (noSign : c ≠ '+' ∧ c ≠ '-') : readInt? chars = none := by
  have unread : ∀ {rest : List Char}, c ∈ rest → readNat? rest = none := by
    intro rest inside
    have notAll : rest.all isAsciiDigit = false := by
      rw [List.all_eq_false]
      exact ⟨c, inside, by simp [noDigit]⟩
    simp [readNat?, notAll]
  unfold readInt?
  split
  · rw [unread (List.mem_of_ne_of_mem noSign.1 member)]
    rfl
  · rw [unread (List.mem_of_ne_of_mem noSign.2 member)]
    rfl
  · rw [unread member]
    rfl

theorem Layout.literal_marked (bits : Nat) :
    (Layout.literal.magnitudeText bits).fraction ≠ [] ∨
      (Layout.literal.magnitudeText bits).power ≠ [] := by
  have positional : ∀ {digits : List Char} (order : Int), digits ≠ [] →
      (DecimalText.positional true digits order).fraction ≠ [] := by
    intro digits order some
    rw [DecimalText.positional]
    split
    · simp [some]
    · dsimp only
      split
      · simp
      · rename_i long
        rw [ne_eq, List.drop_eq_nil_iff]
        exact long
  rw [magnitudeText]
  split
  · exact .inl (positional 0 (by simp))
  · rename_i notZero
    have positive : 0 < bits := Nat.pos_of_ne_zero notZero
    have some := (significant_digits (digits_shortest_pos positive Layout.literal.tie)).1
    dsimp only
    split
    · exact .inl (positional _ some)
    · exact .inr (digitsOf_ne_nil _)

namespace DecimalText

theorem exists_mark {text : DecimalText} (marked : text.fraction ≠ [] ∨ text.power ≠ []) :
    ∃ c ∈ text.chars, isAsciiDigit c = false ∧ c ≠ '+' ∧ c ≠ '-' := by
  rcases marked with some | some
  · exact ⟨'.', by simp [chars, fractionChars, some], by decide, by decide, by decide⟩
  · exact ⟨'e', by simp [chars, exponentChars, some], by decide, by decide, by decide⟩

end DecimalText

/-- A literal keeps a point or an exponent, so that it is never read as a whole number. -/
theorem readInt64?_literal {value : Float} (finite : isFinite value = true) :
    readInt64? (Layout.literal.chars value) = none := by
  obtain ⟨c, member, noDigit, noSign⟩ :=
    DecimalText.exists_mark (Layout.literal_marked (magnitudeBits value))
  have inside : c ∈ Layout.literal.chars value := by
    rw [Layout.literal.chars_eq finite]
    split
    · exact List.mem_cons_of_mem _ member
    · exact member
  rw [readInt64?, readInt?_eq_none_of_mem inside noDigit noSign]
  rfl

end TableSieve.Number
