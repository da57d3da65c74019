import Mathlib.Tactic.Ring
import TableSieve.Number.Layout
import TableSieve.Number.Reading
import TableSieve.Proofs.Digits

/-!
Decimals in writing: digits, perhaps a point and more digits, perhaps an exponent. Every layout
writes a magnitude in this form, and the form reads as the decimal that it shows.
-/

namespace TableSieve.Number

open TableSieve.Text

/-- Without digits after it there is no point, and without a power no exponent. -/
structure DecimalText where
  whole : List Char
  fraction : List Char
  sign : List Char
  power : List Char

namespace DecimalText

def fractionChars (text : DecimalText) : List Char :=
  if text.fraction = [] then [] else '.' :: text.fraction

def exponentChars (text : DecimalText) : List Char :=
  if text.power = [] then [] else 'e' :: (text.sign ++ text.power)

def chars (text : DecimalText) : List Char :=
  text.whole ++ (text.fractionChars ++ text.exponentChars)

def exponent (text : DecimalText) : Int :=
  if text.sign = ['-'] then -(valueOf text.power : Int) else valueOf text.power

def decimal (text : DecimalText) : Decimal :=
  ⟨valueOf (text.whole ++ text.fraction), text.exponent - text.fraction.length⟩

structure Proper (text : DecimalText) : Prop where
  starts : text.whole ≠ []
  wholeDigits : ∀ c ∈ text.whole, isAsciiDigit c = true
  fractionDigits : ∀ c ∈ text.fraction, isAsciiDigit c = true
  powerDigits : ∀ c ∈ text.power, isAsciiDigit c = true
  signed : text.sign = [] ∨ text.sign = ['+'] ∨ text.sign = ['-']

end DecimalText

/-! Digits. -/

theorem foldl_valueOf (digits : List Char) (start : Nat) :
    digits.foldl (fun total c => 10 * total + digitValue c) start =
      start * 10 ^ digits.length + valueOf digits := by
  induction digits generalizing start with
  | nil => simp [valueOf]
  | cons c digits ih =>
      have tail := ih (digitValue c)
      rw [valueOf, List.foldl_cons, List.foldl_cons, ih, Nat.mul_zero, Nat.zero_add, tail,
        List.length_cons, pow_succ]
      ring

theorem valueOf_append (digits more : List Char) :
    valueOf (digits ++ more) = valueOf digits * 10 ^ more.length + valueOf more := by
  rw [valueOf, List.foldl_append, foldl_valueOf, ← valueOf]

theorem valueOf_replicate_zero (count : Nat) : valueOf (List.replicate count '0') = 0 := by
  induction count with
  | zero => rfl
  | succ count ih =>
      rw [List.replicate_succ, ← List.singleton_append, valueOf_append, ih]
      simp [valueOf, digitValue]

def EndsDigits : List Char → Prop
  | [] => True
  | c :: _ => isAsciiDigit c = false

theorem takeWhile_digits {digits rest : List Char}
    (allDigits : ∀ c ∈ digits, isAsciiDigit c = true) (ends : EndsDigits rest) :
    (digits ++ rest).takeWhile isAsciiDigit = digits := by
  rw [List.takeWhile_append_of_pos allDigits]
  cases rest with
  | nil => simp
  | cons c rest => simp [show isAsciiDigit c = false from ends]

theorem dropWhile_digits {digits rest : List Char}
    (allDigits : ∀ c ∈ digits, isAsciiDigit c = true) (ends : EndsDigits rest) :
    (digits ++ rest).dropWhile isAsciiDigit = rest := by
  rw [List.dropWhile_append_of_pos allDigits]
  cases rest with
  | nil => rfl
  | cons c rest => simp [show isAsciiDigit c = false from ends]

theorem readNat?_digits {digits : List Char} (some : digits ≠ [])
    (allDigits : ∀ c ∈ digits, isAsciiDigit c = true) :
    readNat? digits = .some (valueOf digits) := by
  have all : digits.all isAsciiDigit = true := List.all_eq_true.mpr allDigits
  simp [readNat?, some, all]

theorem not_isAsciiDigit_sign {c : Char} (digit : isAsciiDigit c = true) : c ≠ '+' ∧ c ≠ '-' := by
  constructor <;>
    · rintro rfl
      simp [isAsciiDigit] at digit

theorem readInt?_digits {digits : List Char} (some : digits ≠ [])
    (allDigits : ∀ c ∈ digits, isAsciiDigit c = true) :
    readInt? digits = .some (valueOf digits : Int) := by
  cases digits with
  | nil => exact absurd rfl some
  | cons c rest =>
      obtain ⟨notPlus, notMinus⟩ := not_isAsciiDigit_sign (allDigits c (List.mem_cons_self ..))
      unfold readInt?
      split
      · simp_all
      · simp_all
      · rw [readNat?_digits some allDigits]
        rfl

theorem readInt?_intChars (value : Int) : readInt? (intChars value) = some value := by
  have some := digitsOf_ne_nil value.natAbs
  have allDigits : ∀ c ∈ digitsOf value.natAbs, isAsciiDigit c = true :=
    fun c member => isAsciiDigit_of_mem_digitsOf member
  rw [intChars]
  split
  · rename_i negative
    rw [readInt?, readNat?_digits some allDigits, valueOf_digitsOf, Option.map_some]
    simp only [Int.ofNat_eq_natCast, Option.some.injEq]
    omega
  · rename_i nonneg
    rw [readInt?_digits some allDigits, valueOf_digitsOf]
    simp only [Option.some.injEq]
    omega

namespace DecimalText

variable {text : DecimalText}

theorem readExponent?_exponentChars (proper : text.Proper) :
    readExponent? text.exponentChars = some text.exponent := by
  rw [exponentChars, exponent]
  by_cases none : text.power = []
  · rw [if_pos none, none]
    simp [readExponent?, valueOf]
  · rw [if_neg none, readExponent?, if_pos (by decide)]
    rcases proper.signed with same | same | same
    · rw [same, List.nil_append, readInt?_digits none proper.powerDigits]
      rfl
    · rw [same, List.singleton_append, readInt?, readNat?_digits none proper.powerDigits]
      rfl
    · rw [same, List.singleton_append, readInt?, readNat?_digits none proper.powerDigits]
      rfl

theorem endsDigits_exponentChars (text : DecimalText) : EndsDigits text.exponentChars := by
  rw [exponentChars]
  split
  · trivial
  · exact (by decide : isAsciiDigit 'e' = false)

theorem endsDigits_tail (text : DecimalText) :
    EndsDigits (text.fractionChars ++ text.exponentChars) := by
  rw [fractionChars]
  split
  · exact text.endsDigits_exponentChars
  · exact (by decide : isAsciiDigit '.' = false)

theorem readDecimal?_chars (proper : text.Proper) :
    readDecimal? text.chars = some text.decimal := by
  have whole := takeWhile_digits proper.wholeDigits text.endsDigits_tail
  have afterWhole := dropWhile_digits proper.wholeDigits text.endsDigits_tail
  have fraction := takeWhile_digits proper.fractionDigits text.endsDigits_exponentChars
  have afterFraction := dropWhile_digits proper.fractionDigits text.endsDigits_exponentChars
  have exponent := readExponent?_exponentChars proper
  have starts := proper.starts
  rw [readDecimal?, chars, whole, afterWhole, decimal, fractionChars]
  by_cases noFraction : text.fraction = []
  · rw [if_pos noFraction, List.nil_append, noFraction]
    have noPoint : ∀ rest, text.exponentChars ≠ '.' :: rest := by
      intro rest
      rw [exponentChars]
      split <;> simp
    split
    · rename_i rest point
      exact absurd point (noPoint rest)
    · simp [starts, exponent]
  · rw [if_neg noFraction, List.cons_append]
    simp [fraction, afterFraction, starts, exponent]

end DecimalText

end TableSieve.Number
