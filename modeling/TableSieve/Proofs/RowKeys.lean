import TableSieve.Proofs.Digits
import TableSieve.Table.Basic

/-!
Keys of rows. The key of a cell shows where it ends: only a text can hold the separator, and the key
of a text tells how long it is. So the key of a row determines the keys of its cells.
-/

namespace TableSieve

open TableSieve.Calendar TableSieve.Number TableSieve.Text

theorem separator_not_mem_digitsOf (value : Nat) : '\x1f' ∉ digitsOf value := by
  intro member
  have digit := isAsciiDigit_of_mem_digitsOf member
  revert digit
  decide

theorem separator_not_mem_paddedDigits (width value : Nat) : '\x1f' ∉ paddedDigits width value := by
  simp [paddedDigits, separator_not_mem_digitsOf]

theorem separator_not_mem_intChars (value : Int) : '\x1f' ∉ intChars value := by
  unfold intChars
  split <;> simp [separator_not_mem_digitsOf]

theorem separator_not_mem_hexDigits (value : Nat) : '\x1f' ∉ Cell.hexDigits value := by
  have digit (value : Nat) : '\x1f' ≠ value.digitChar :=
    Ne.symm (Nat.digitChar_ne '\x1f' (by decide))
  unfold Cell.hexDigits
  induction value using Nat.strongRecOn with
  | ind value ih =>
      rw [Nat.toDigits_eq_if (by decide)]
      split
      · simp
      · simp [ih (value / 16) (by omega), digit]

theorem separator_not_mem_date (date : Date) : '\x1f' ∉ date.chars := by
  have year : '\x1f' ∉ yearChars date.year := by
    unfold yearChars
    split
    · simp [separator_not_mem_paddedDigits]
    · split
      · simp [separator_not_mem_digitsOf]
      · exact separator_not_mem_paddedDigits _ _
  simp [Date.chars, year, separator_not_mem_paddedDigits]

theorem separator_not_mem_dateTime (moment : DateTime) :
    '\x1f' ∉ moment.secondChars ∧ '\x1f' ∉ moment.time.fractionChars := by
  constructor
  · simp [DateTime.secondChars, Time.clockChars, separator_not_mem_date,
      separator_not_mem_paddedDigits]
  · simp only [Time.fractionChars]
    split
    · simp
    · split
      · simp [separator_not_mem_paddedDigits]
      · split <;> simp [separator_not_mem_paddedDigits]

namespace Cell

theorem separator_not_mem_key {cell : Cell} (notText : cell.text? = none) :
    '\x1f' ∉ cell.key.toList := by
  cases cell with
  | null => decide
  | bool value => cases value <;> decide
  | int value => simp [key, intText, separator_not_mem_intChars]
  | float value =>
      by_cases missing : isNaN value = true
      · simp [key, missing]
      · simp [key, missing, separator_not_mem_hexDigits]
  | text value => simp [text?] at notText
  | date value => simp [key, Date.text, separator_not_mem_date]
  | dateTime value => simp [key, DateTime.text, separator_not_mem_dateTime]

theorem head_key_missing (cell : Cell) :
    cell.key.toList.head? = some 'n' ↔ cell.isMissing = true := by
  cases cell with
  | null => simp [key, isMissing]
  | bool value => cases value <;> simp [key, isMissing]
  | int value => simp [key, isMissing]
  | float value => by_cases missing : isNaN value = true <;> simp [key, isMissing, missing]
  | text value => simp [key, isMissing]
  | date value => simp [key, isMissing]
  | dateTime value => simp [key, isMissing]

theorem head_key_text (cell : Cell) :
    cell.key.toList.head? = some 't' ↔ cell.text?.isSome = true := by
  cases cell with
  | null => simp [key, text?]
  | bool value => cases value <;> simp [key, text?]
  | int value => simp [key, text?]
  | float value => by_cases missing : isNaN value = true <;> simp [key, text?, missing]
  | text value => simp [key, text?]
  | date value => simp [key, text?]
  | dateTime value => simp [key, text?]

theorem isMissing_eq_of_key {left right : Cell} (equal : left.key = right.key) :
    left.isMissing = right.isMissing := by
  rw [Bool.eq_iff_iff, ← head_key_missing, ← head_key_missing, equal]

theorem toList_key_text (value : String) :
    (text value).key.toList =
      't' :: ':' :: (digitsOf value.utf8ByteSize ++ ':' :: value.toList) := by
  simp [key, natText]

end Cell

def EndsKey (rest : List Char) : Prop :=
  rest = [] ∨ ∃ more, rest = '\x1f' :: more

theorem takeWhile_key {key rest : List Char} (noSeparator : '\x1f' ∉ key) (ends : EndsKey rest) :
    (key ++ rest).takeWhile (· != '\x1f') = key := by
  have passes : ∀ c ∈ key, (c != '\x1f') = true := by
    intro c member
    rw [bne_iff_ne]
    exact fun equal => noSeparator (equal ▸ member)
  rw [List.takeWhile_append_of_pos passes]
  rcases ends with rfl | ⟨more, rfl⟩ <;> simp

theorem takeWhile_digits (value : Nat) (rest : List Char) :
    (digitsOf value ++ ':' :: rest).takeWhile isAsciiDigit = digitsOf value := by
  rw [List.takeWhile_append_of_pos fun c member => isAsciiDigit_of_mem_digitsOf member]
  simp [show isAsciiDigit ':' = false by decide]

theorem eq_of_append_eq {left right : String} {leftRest rightRest : List Char}
    (sameSize : left.utf8ByteSize = right.utf8ByteSize)
    (equal : left.toList ++ leftRest = right.toList ++ rightRest) :
    left = right ∧ leftRest = rightRest := by
  have longer {short long : String} {added : List Char}
      (size : short.utf8ByteSize = long.utf8ByteSize)
      (extended : long.toList = short.toList ++ added) : added = [] := by
    have whole : long = short ++ String.ofList added := by
      rw [← String.toList_inj]
      simpa using extended
    rw [whole, String.utf8ByteSize_append] at size
    have empty : String.ofList added = "" := String.utf8ByteSize_eq_zero_iff.mp (by omega)
    simpa using congrArg String.toList empty
  rcases List.append_eq_append_iff.mp equal with ⟨added, extended, rest⟩ | ⟨added, extended, rest⟩
  · have none := longer sameSize extended
    subst none
    exact ⟨String.toList_inj.mp (by simpa using extended.symm), by simpa using rest⟩
  · have none := longer sameSize.symm extended
    subst none
    exact ⟨String.toList_inj.mp (by simpa using extended), by simpa using rest.symm⟩

namespace Cell

theorem head?_key_append (cell : Cell) (rest : List Char) :
    (cell.key.toList ++ rest).head? = cell.key.toList.head? := by
  cases start : cell.key.toList with
  | nil =>
      cases cell with
      | bool value => cases value <;> simp [key] at start
      | float value => by_cases missing : isNaN value = true <;> simp [key, missing] at start
      | _ => simp [key] at start
  | cons c more => rfl

theorem eq_text_of_text? {cell : Cell} {value : String} (found : cell.text? = some value) :
    cell = .text value := by
  cases cell <;> simp_all [text?]

/-- Keys can be told apart from what follows them. -/
theorem key_append_injective {left right : Cell} {leftRest rightRest : List Char}
    (leftEnds : EndsKey leftRest) (rightEnds : EndsKey rightRest)
    (equal : left.key.toList ++ leftRest = right.key.toList ++ rightRest) :
    left.key = right.key ∧ leftRest = rightRest := by
  have sameHead : left.key.toList.head? = right.key.toList.head? := by
    rw [← head?_key_append left leftRest, equal, head?_key_append]
  -- A text may hold the separator itself, but its key says how long it is.
  cases leftText : left.text? with
  | none =>
      have rightText : right.text? = none := by
        have notText : ¬left.key.toList.head? = some 't' := by
          rw [head_key_text, leftText]
          simp
        rw [sameHead, head_key_text] at notText
        simpa using notText
      have sameKey := congrArg (List.takeWhile (· != '\x1f')) equal
      rw [takeWhile_key (separator_not_mem_key leftText) leftEnds,
        takeWhile_key (separator_not_mem_key rightText) rightEnds] at sameKey
      rw [sameKey, List.append_cancel_left_eq] at equal
      exact ⟨String.toList_inj.mp sameKey, equal⟩
  | some leftValue =>
      have isText : right.key.toList.head? = some 't' := by
        rw [← sameHead, head_key_text, leftText]
        rfl
      obtain ⟨rightValue, rightText⟩ :=
        Option.isSome_iff_exists.mp ((head_key_text right).mp isText)
      rw [eq_text_of_text? leftText, eq_text_of_text? rightText] at equal ⊢
      simp only [toList_key_text, List.cons_append, List.append_assoc, List.cons.injEq,
        true_and] at equal
      have sameDigits := congrArg (List.takeWhile isAsciiDigit) equal
      rw [takeWhile_digits, takeWhile_digits] at sameDigits
      rw [sameDigits, List.append_cancel_left_eq, List.cons.injEq] at equal
      obtain ⟨sameValue, sameRest⟩ := eq_of_append_eq (digitsOf_injective sameDigits) equal.2
      exact ⟨by rw [sameValue], sameRest⟩

end Cell

namespace Table

theorem toList_rowKey_cons (cell : Cell) (row : List Cell) :
    ∃ rest, EndsKey rest ∧ (rowKey (cell :: row)).toList = cell.key.toList ++ rest ∧
      (row ≠ [] → rest = '\x1f' :: (rowKey row).toList) := by
  cases row with
  | nil => exact ⟨[], Or.inl rfl, by simp [rowKey], by simp⟩
  | cons next row =>
      refine ⟨'\x1f' :: (rowKey (next :: row)).toList, Or.inr ⟨_, rfl⟩, ?_, fun _ => rfl⟩
      simp [rowKey, keySeparator]

theorem rowKey_injective {row other : List Cell} (sameLength : row.length = other.length)
    (equal : rowKey row = rowKey other) : row.map Cell.key = other.map Cell.key := by
  induction row generalizing other with
  | nil =>
      have none : other = [] := List.eq_nil_of_length_eq_zero sameLength.symm
      simp [none]
  | cons cell row ih =>
      cases other with
      | nil => simp at sameLength
      | cons otherCell other =>
          have restLength : row.length = other.length := by simpa using sameLength
          obtain ⟨rest, ends, whole, more⟩ := toList_rowKey_cons cell row
          obtain ⟨otherRest, otherEnds, otherWhole, otherMore⟩ := toList_rowKey_cons otherCell other
          have joined : cell.key.toList ++ rest = otherCell.key.toList ++ otherRest := by
            rw [← whole, ← otherWhole, equal]
          obtain ⟨sameKey, sameRest⟩ := Cell.key_append_injective ends otherEnds joined
          by_cases last : row = []
          · have otherLast : other = [] :=
              List.eq_nil_of_length_eq_zero (by simp [← restLength, last])
            simp [last, otherLast, sameKey]
          · have otherNotLast : other ≠ [] := by
              intro none
              exact last (List.eq_nil_of_length_eq_zero (by simp [restLength, none]))
            rw [more last, otherMore otherNotLast, List.cons.injEq] at sameRest
            simp [sameKey, ih restLength (String.toList_inj.mp sameRest.2)]

end Table

end TableSieve
