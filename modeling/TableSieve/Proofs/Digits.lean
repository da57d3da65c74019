import TableSieve.Number.Digits

/-!
Decimal notation: a written number consists of digits and reads back as what it was.
-/

namespace TableSieve.Number

open TableSieve.Text

theorem isAsciiDigit_digitChar : ∀ value < 10, isAsciiDigit (digitChar value) = true := by
  decide

theorem digitValue_digitChar : ∀ value < 10, digitValue (digitChar value) = value := by
  decide

theorem digitsOf_ne_nil (value : Nat) : digitsOf value ≠ [] := by
  rw [digitsOf]
  split <;> simp

theorem isAsciiDigit_of_mem_digitsOf {value : Nat} {c : Char} (member : c ∈ digitsOf value) :
    isAsciiDigit c = true := by
  induction value using Nat.strongRecOn with
  | ind value ih =>
      rw [digitsOf] at member
      split at member
      · rename_i small
        rw [List.mem_singleton.mp member]
        exact isAsciiDigit_digitChar value small
      · rcases List.mem_append.mp member with front | last
        · exact ih (value / 10) (by omega) front
        · rw [List.mem_singleton.mp last]
          exact isAsciiDigit_digitChar _ (by omega)

theorem valueOf_append_digit (digits : List Char) (last : Char) :
    valueOf (digits ++ [last]) = 10 * valueOf digits + digitValue last := by
  simp [valueOf]

theorem valueOf_digitsOf (value : Nat) : valueOf (digitsOf value) = value := by
  induction value using Nat.strongRecOn with
  | ind value ih =>
      rw [digitsOf]
      split
      · rename_i small
        simpa [valueOf] using digitValue_digitChar value small
      · rw [valueOf_append_digit, ih (value / 10) (by omega),
          digitValue_digitChar _ (by omega)]
        omega

theorem digitsOf_injective {left right : Nat} (equal : digitsOf left = digitsOf right) :
    left = right := by
  rw [← valueOf_digitsOf left, equal, valueOf_digitsOf]

end TableSieve.Number
