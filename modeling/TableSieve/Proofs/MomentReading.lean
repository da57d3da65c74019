import Mathlib.Data.List.TakeWhile
import TableSieve.Calendar.Reading
import TableSieve.Proofs.Lists
import TableSieve.Proofs.MomentText
import TableSieve.Proofs.WrittenTokens

/-!
Reading dates and date-times back. A written date is read as itself, and so is a date-time written
to the second if it has no fraction of one; a leap second keeps its sixty. Neither is a number, as
there is a hyphen behind the first digits.
-/

namespace TableSieve.Calendar

open TableSieve.Number TableSieve.Text

variable {digits rest : List Char}

theorem readField_digits {width : Nat} (some : digits ≠ [])
    (allDigits : ∀ c ∈ digits, isAsciiDigit c = true) (fits : digits.length ≤ width)
    (ends : digits.length = width ∨ EndsDigits rest)
    (small : valueOf digits ≤ 9223372036854775807) :
    readField width (digits ++ rest) = .ok (valueOf digits, rest) := by
  have found : ((digits ++ rest).take width).takeWhile isAsciiDigit = digits := by
    rw [List.take_append]
    rcases ends with full | ends
    · rw [full, Nat.sub_self, List.take_zero, List.append_nil, ← full, List.take_length,
        List.takeWhile_eq_self_iff.mpr allDigits]
    · rw [List.take_of_length_le fits]
      refine takeWhile_digits allDigits ?_
      cases rest with
      | nil => simp [EndsDigits]
      | cons c rest =>
          cases width - digits.length with
          | zero => trivial
          | succ count => exact ends
  have nonempty : digits.isEmpty = false := by simpa using some
  cases digits with
  | nil => exact absurd rfl some
  | cons c more =>
      simp only [List.cons_append, readField] at found ⊢
      rw [found, nonempty, if_neg (by simp), if_neg (by omega), ← List.cons_append,
        List.drop_left]

theorem readField_paddedDigits {width value : Nat} (some : 0 < width) (fits : value < 10 ^ width)
    (small : value ≤ 9223372036854775807) :
    readField width (paddedDigits width value ++ rest) = .ok (value, rest) := by
  have length := length_paddedDigits width value some fits
  have digits : ∀ c ∈ paddedDigits width value, isAsciiDigit c = true :=
    fun _ => isAsciiDigit_of_mem_paddedDigits
  rw [readField_digits (paddedDigits_ne_nil width value) digits length.le (.inl length)
    (by rwa [valueOf_paddedDigits]), valueOf_paddedDigits]

theorem dropBlanks_digits (some : digits ≠ []) (allDigits : ∀ c ∈ digits, isAsciiDigit c = true)
    (rest : List Char) : dropBlanks (digits ++ rest) = digits ++ rest := by
  cases digits with
  | nil => exact absurd rfl some
  | cons c more =>
      have digit := isDecimalDigit_of_isAsciiDigit (allDigits c (List.mem_cons_self ..))
      exact dropBlanks_of_not_isBlank (not_isBlank_of_isDecimalDigit digit)

theorem readYear_yearChars {year : Int} (low : -2147483648 ≤ year) (high : year ≤ 2147483647)
    (ends : EndsDigits rest) : readYear (yearChars year ++ rest) = .ok (year, rest) := by
  have inRange : -2147483648 ≤ year ∧ year ≤ 2147483647 := ⟨low, high⟩
  have signed {digits : List Char} (some : digits ≠ [])
      (allDigits : ∀ c ∈ digits, isAsciiDigit c = true)
      (value : valueOf digits = year.natAbs) :
      readField (digits ++ rest).length (digits ++ rest) = .ok (year.natAbs, rest) := by
    rw [readField_digits some allDigits (by simp) (.inr ends) (by omega), value]
  rw [yearChars]
  split
  · have same : -(year.natAbs : Int) = year := by omega
    have read := signed (paddedDigits_ne_nil 4 year.natAbs)
      (fun _ => isAsciiDigit_of_mem_paddedDigits) (valueOf_paddedDigits _ _)
    rw [List.cons_append, readYear, dropBlanks_of_not_isBlank (by decide)]
    simp only [read, bind, Except.bind, Except.map, same, if_pos inRange]
  · have same : (year.natAbs : Int) = year := by omega
    split
    · have read := signed (digitsOf_ne_nil year.natAbs)
        (fun _ => isAsciiDigit_of_mem_digitsOf) (valueOf_digitsOf _)
      rw [List.cons_append, readYear, dropBlanks_of_not_isBlank (by decide)]
      simp only [read, bind, Except.bind, Except.map, same, if_pos inRange]
    · have some := paddedDigits_ne_nil 4 year.natAbs
      have allDigits : ∀ c ∈ paddedDigits 4 year.natAbs, isAsciiDigit c = true :=
        fun _ => isAsciiDigit_of_mem_paddedDigits
      have read : readField 4 (paddedDigits 4 year.natAbs ++ rest) = .ok (year.natAbs, rest) :=
        readField_paddedDigits (by decide) (by omega) (by omega)
      rw [readYear, dropBlanks_digits some allDigits]
      obtain ⟨c, more, shape⟩ := List.exists_cons_of_ne_nil some
      obtain ⟨notPlus, notMinus⟩ := not_isAsciiDigit_sign (allDigits c (by simp [shape]))
      rw [shape, List.cons_append] at read ⊢
      split
      · exact absurd (List.cons.inj ‹_›).1 notMinus
      · exact absurd (List.cons.inj ‹_›).1 notPlus
      · simp only [read, bind, Except.bind, Except.map, same, if_pos inRange]

theorem readBounded_paddedDigits {low high value : Nat} (bounded : low ≤ value ∧ value ≤ high)
    (small : value < 100) : readBounded low high (paddedDigits 2 value ++ rest) =
      .ok (value, rest) := by
  have read : readField 2 (paddedDigits 2 value ++ rest) = .ok (value, rest) :=
    readField_paddedDigits (by decide) small (by omega)
  rw [readBounded, dropBlanks_digits (paddedDigits_ne_nil 2 value)
    fun _ => isAsciiDigit_of_mem_paddedDigits, read]
  simp [bind, Except.bind, bounded]

theorem readMark_cons (mark : Char) : readMark mark (mark :: rest) = .ok rest := by
  simp [readMark]

theorem readDateFields_chars (date : Date) :
    readDateFields (date.chars ++ rest) = .ok ((date.year, date.month, date.day), rest) := by
  have inRange := date.isDate.1
  simp only [firstYear, lastYear] at inRange
  have monthRange := date.isDate.2.1
  have dayRange : 1 ≤ date.day ∧ date.day ≤ 31 := ⟨date.isDate.2.2.1, date.day_le⟩
  have hyphen : isAsciiDigit '-' = false := by decide
  have year : readYear (yearChars date.year ++
      '-' :: (paddedDigits 2 date.month ++ '-' :: (paddedDigits 2 date.day ++ rest))) = .ok _ :=
    readYear_yearChars (by omega) (by omega) hyphen
  have month : readBounded 1 12
      (paddedDigits 2 date.month ++ '-' :: (paddedDigits 2 date.day ++ rest)) = .ok _ :=
    readBounded_paddedDigits monthRange (by omega)
  have day : readBounded 1 31 (paddedDigits 2 date.day ++ rest) = .ok _ :=
    readBounded_paddedDigits dayRange (by omega)
  rw [Date.chars]
  simp only [List.append_assoc, List.cons_append, readDateFields, year, month, day, readMark_cons,
    bind, Except.bind]

theorem dateOf_fields (date : Date) : dateOf (date.year, date.month, date.day) = .ok date := by
  simp only [dateOf, Date.of?, dif_pos date.isDate]

theorem readDate_chars (date : Date) : readDate date.chars = .ok date := by
  have fields : readDateFields (date.chars ++ []) = .ok _ := readDateFields_chars date
  rw [List.append_nil] at fields
  simp only [readDate, fields, readEnd, dateOf_fields, bind, Except.bind]

def Time.IsWhole (time : Time) : Prop :=
  time.nano = 0 ∨ time.nano = nanosPerSecond

theorem Time.second_le (time : Time) : time.second % 60 + time.nano / nanosPerSecond ≤ 60 := by
  have isTime := time.isTime.2
  simp only [nanosPerSecond] at isTime ⊢
  omega

theorem readClockFields_clockChars (time : Time) :
    readClockFields time.clockChars = .ok ((time.second / 3600, time.second / 60 % 60,
      time.second % 60 + time.nano / nanosPerSecond), []) := by
  have bound : time.second < 86400 := time.isTime.1
  have hour : readBounded 0 23 (paddedDigits 2 (time.second / 3600) ++ ':' ::
      (paddedDigits 2 (time.second / 60 % 60) ++ ':' ::
        paddedDigits 2 (time.second % 60 + time.nano / nanosPerSecond))) = .ok _ :=
    readBounded_paddedDigits (by omega) (by omega)
  have minute : readBounded 0 59 (paddedDigits 2 (time.second / 60 % 60) ++ ':' ::
      paddedDigits 2 (time.second % 60 + time.nano / nanosPerSecond)) = .ok _ :=
    readBounded_paddedDigits (by omega) (by omega)
  have second : readBounded 0 60
      (paddedDigits 2 (time.second % 60 + time.nano / nanosPerSecond) ++ []) = .ok _ :=
    readBounded_paddedDigits ⟨Nat.zero_le _, time.second_le⟩
      (Nat.lt_of_le_of_lt time.second_le (by decide))
  rw [List.append_nil] at second
  simp only [Time.clockChars, readClockFields, hour, minute, second, readMark_cons, bind,
    Except.bind]

theorem Time.of?_eq_some (time : Time) : Time.of? time.second time.nano = some time :=
  dif_pos time.isTime

theorem timeOf?_fields {time : Time} (whole : time.IsWhole) :
    timeOf? (time.second / 3600, time.second / 60 % 60,
      time.second % 60 + time.nano / nanosPerSecond) 0 = some time := by
  have isTime := time.isTime.2
  have same := time.of?_eq_some
  rcases whole with none | leap
  · have start : (time.second / 3600 * 60 + time.second / 60 % 60) * 60 + time.second % 60 =
        time.second := by omega
    rw [none] at same ⊢
    simp only [timeOf?, Nat.zero_div, Nat.add_zero]
    rw [if_neg (by omega), start, same]
  · rw [leap] at isTime same ⊢
    have last : time.second % 60 = 59 := by
      simp only [nanosPerSecond] at isTime
      omega
    have start : (time.second / 3600 * 60 + time.second / 60 % 60) * 60 + 59 = time.second := by
      omega
    have one : nanosPerSecond / nanosPerSecond = 1 := by decide
    simp only [timeOf?, last, one, Nat.add_zero]
    rw [if_pos trivial, start, same]

theorem readDateTime_secondChars {moment : DateTime} (whole : moment.time.IsWhole) :
    readDateTime .letterT moment.secondChars = .ok moment := by
  have date : readDateFields (moment.date.chars ++ 'T' :: moment.time.clockChars) = .ok _ :=
    readDateFields_chars moment.date
  simp only [DateTime.secondChars, readDateTime, readDateTimeWith, date, Separator.skip,
    readMark_cons, readClockFields_clockChars, readEnd, dateOf_fields, timeOf?_fields whole, bind,
    Except.bind]

theorem isWhole_of_timeOf? {fields : Nat × Nat × Nat} {time : Time}
    (found : timeOf? fields 0 = some time) : time.IsWhole := by
  unfold timeOf? at found
  dsimp only at found
  split at found
  · unfold Time.of? at found
    split at found
    · exact .inr (congrArg Time.nano (Option.some.inj found)).symm
    · cases found
  · unfold Time.of? at found
    split at found
    · exact .inl (congrArg Time.nano (Option.some.inj found)).symm
    · cases found

theorem isWhole_of_readDateTime {separator : Separator} {chars : List Char} {moment : DateTime}
    (read : readDateTime separator chars = .ok moment) : moment.time.IsWhole := by
  obtain ⟨dateFields, _, read⟩ := bind_eq_ok_iff.mp read
  obtain ⟨afterDate, _, read⟩ := bind_eq_ok_iff.mp read
  obtain ⟨clockFields, _, read⟩ := bind_eq_ok_iff.mp read
  obtain ⟨fraction, noFraction, read⟩ := bind_eq_ok_iff.mp read
  obtain ⟨_, _, read⟩ := bind_eq_ok_iff.mp read
  obtain ⟨date, _, read⟩ := bind_eq_ok_iff.mp read
  obtain rfl := Except.ok.inj noFraction
  dsimp only at read
  split at read
  · rename_i time found
    obtain rfl := Except.ok.inj read
    exact isWhole_of_timeOf? found
  · cases read

theorem isWhole_of_readAnyDateTime? {chars : List Char} {moment : DateTime}
    (read : readAnyDateTime? chars = some moment) : moment.time.IsWhole := by
  unfold readAnyDateTime? at read
  split at read
  · rename_i found
    exact Option.some.inj read ▸ isWhole_of_readDateTime found
  · exact isWhole_of_readDateTime (toOption_eq_some_iff.mp read)

theorem readAnyDateTime?_secondChars {moment : DateTime} (whole : moment.time.IsWhole) :
    readAnyDateTime? moment.secondChars = some moment := by
  rw [readAnyDateTime?, readDateTime_secondChars whole]

theorem readDate_secondChars (moment : DateTime) :
    readDate moment.secondChars = .error .textLeft := by
  have date : readDateFields (moment.date.chars ++ 'T' :: moment.time.clockChars) = .ok _ :=
    readDateFields_chars moment.date
  simp only [DateTime.secondChars, readDate, date, readEnd, bind, Except.bind]

/-! Numbers. -/

def IsHyphenated (chars : List Char) : Prop :=
  ∃ sign digits rest, chars = sign ++ (digits ++ '-' :: rest) ∧
    (sign = [] ∨ sign = ['+'] ∨ sign = ['-']) ∧ digits ≠ [] ∧ ∀ c ∈ digits, isAsciiDigit c = true

theorem yearChars_eq_append (year : Int) :
    ∃ sign digits, yearChars year = sign ++ digits ∧
      (sign = [] ∨ sign = ['+'] ∨ sign = ['-']) ∧ digits ≠ [] ∧
        ∀ c ∈ digits, isAsciiDigit c = true := by
  have padded : ∀ c ∈ paddedDigits 4 year.natAbs, isAsciiDigit c = true :=
    fun _ => isAsciiDigit_of_mem_paddedDigits
  rw [yearChars]
  split
  · exact ⟨['-'], _, rfl, .inr (.inr rfl), paddedDigits_ne_nil 4 _, padded⟩
  · split
    · exact ⟨['+'], _, rfl, .inr (.inl rfl), digitsOf_ne_nil _,
        fun _ => isAsciiDigit_of_mem_digitsOf⟩
    · exact ⟨[], _, rfl, .inl rfl, paddedDigits_ne_nil 4 _, padded⟩

theorem isHyphenated_chars (date : Date) (rest : List Char) : IsHyphenated (date.chars ++ rest) := by
  obtain ⟨sign, digits, year, signed, some, allDigits⟩ := yearChars_eq_append date.year
  exact ⟨sign, digits, paddedDigits 2 date.month ++ '-' :: (paddedDigits 2 date.day ++ rest),
    by simp [Date.chars, year], signed, some, allDigits⟩

theorem IsHyphenated.hyphen_mem {chars : List Char} (hyphenated : IsHyphenated chars) :
    '-' ∈ chars := by
  obtain ⟨sign, digits, rest, rfl, _⟩ := hyphenated
  simp

theorem readNat?_hyphen (digits rest : List Char) : readNat? (digits ++ '-' :: rest) = none := by
  have notAll : (digits ++ '-' :: rest).all isAsciiDigit = false := by
    rw [List.all_eq_false]
    exact ⟨'-', by simp, by decide⟩
  simp [readNat?, notAll]

theorem readMagnitude?_hyphen (some : digits ≠ []) (allDigits : ∀ c ∈ digits, isAsciiDigit c = true)
    (negative : Bool) (rest : List Char) :
    readMagnitude? negative (digits ++ '-' :: rest) = none := by
  have hyphen : isAsciiDigit '-' = false := by decide
  have ends : EndsDigits ('-' :: rest) := hyphen
  have noDecimal : readDecimal? (digits ++ '-' :: rest) = none := by
    simp [readDecimal?, takeWhile_digits allDigits ends, dropWhile_digits allDigits ends, some,
      readExponent?]
  have kept : '-' ∈ (digits ++ '-' :: rest).map Char.toLower :=
    List.mem_map.mpr ⟨'-', by simp, by decide⟩
  have unnamed {name : List Char} (absent : '-' ∉ name) :
      ((digits ++ '-' :: rest).map Char.toLower == name) = false := by
    rw [beq_eq_false_iff_ne]
    rintro rfl
    exact absent kept
  rw [readMagnitude?, noDecimal]
  simp only [unnamed (by decide : '-' ∉ ['i', 'n', 'f']),
    unnamed (by decide : '-' ∉ ['i', 'n', 'f', 'i', 'n', 'i', 't', 'y']),
    unnamed (by decide : '-' ∉ ['n', 'a', 'n']), Bool.or_self, Bool.false_eq_true, if_false]

theorem IsHyphenated.not_number {chars : List Char} (hyphenated : IsHyphenated chars) :
    readInt64? chars = none ∧ readFloat? chars = none := by
  obtain ⟨sign, digits, rest, rfl, signed, some, allDigits⟩ := hyphenated
  have noNat := readNat?_hyphen digits rest
  have noMagnitude (negative : Bool) := readMagnitude?_hyphen some allDigits negative rest
  rw [readInt64?]
  rcases signed with rfl | rfl | rfl
  · obtain ⟨c, more, rfl⟩ := List.exists_cons_of_ne_nil some
    obtain ⟨notPlus, notMinus⟩ := not_isAsciiDigit_sign (allDigits c (List.mem_cons_self ..))
    have notInt : readInt? (c :: more ++ '-' :: rest) = none := by
      unfold readInt?
      split
      · exact absurd (List.cons.inj ‹_›).1 notPlus
      · exact absurd (List.cons.inj ‹_›).1 notMinus
      · rw [noNat, Option.map_none]
    refine ⟨by rw [List.nil_append, notInt, Option.bind_none], ?_⟩
    rw [List.nil_append]
    unfold readFloat?
    split
    · exact absurd (List.cons.inj ‹_›).1 notPlus
    · exact absurd (List.cons.inj ‹_›).1 notMinus
    · exact noMagnitude false
  · exact ⟨by simp [readInt?, noNat], noMagnitude false⟩
  · exact ⟨by simp [readInt?, noNat], noMagnitude true⟩

end TableSieve.Calendar
