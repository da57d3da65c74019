import TableSieve.Calendar.DateTime
import TableSieve.Proofs.DecimalText

/-!
Dates and date-times in writing. The parts of a date and of a time have fixed widths but for the year
and the fraction of a second, and both of these read back. So a text names one date or date-time, as
does a rank.
-/

namespace TableSieve

open TableSieve.Number TableSieve.Text

namespace Number

theorem isAsciiDigit_of_mem_paddedDigits {width value : Nat} {c : Char}
    (member : c ∈ paddedDigits width value) : isAsciiDigit c = true := by
  rcases List.mem_append.mp member with zero | digit
  · rw [List.eq_of_mem_replicate zero]
    decide
  · exact isAsciiDigit_of_mem_digitsOf digit

theorem valueOf_paddedDigits (width value : Nat) : valueOf (paddedDigits width value) = value := by
  rw [paddedDigits, valueOf_append, valueOf_replicate_zero, valueOf_digitsOf, Nat.zero_mul,
    Nat.zero_add]

theorem paddedDigits_injective {width left right : Nat}
    (equal : paddedDigits width left = paddedDigits width right) : left = right := by
  rw [← valueOf_paddedDigits width left, equal, valueOf_paddedDigits]

theorem length_digitsOf_le {width value : Nat} (small : value < 10 ^ (width + 1)) :
    (digitsOf value).length ≤ width + 1 := by
  induction width generalizing value with
  | zero => rw [digitsOf, if_pos (by simpa using small), List.length_singleton]
  | succ width ih =>
      rw [digitsOf]
      split
      · rw [List.length_singleton]
        omega
      · rw [Nat.pow_succ] at small
        have shorter : (digitsOf (value / 10)).length ≤ width + 1 := ih (by omega)
        rw [List.length_append, List.length_singleton]
        omega

theorem length_paddedDigits (width value : Nat) (some : 0 < width) (small : value < 10 ^ width) :
    (paddedDigits width value).length = width := by
  obtain ⟨less, rfl⟩ : ∃ less, width = less + 1 := ⟨width - 1, by omega⟩
  have shorter := length_digitsOf_le small
  simp only [paddedDigits, List.length_append, List.length_replicate]
  omega

theorem paddedDigits_ne_nil (width value : Nat) : paddedDigits width value ≠ [] := by
  intro none
  exact digitsOf_ne_nil value (List.append_eq_nil_iff.mp none).2

end Number

namespace Calendar

theorem readInt?_yearChars (year : Int) : readInt? (yearChars year) = some year := by
  have padded : readNat? (paddedDigits 4 year.natAbs) = some year.natAbs := by
    rw [readNat?_digits (paddedDigits_ne_nil _ _) fun _ => isAsciiDigit_of_mem_paddedDigits,
      valueOf_paddedDigits]
  unfold yearChars
  split
  · rw [readInt?, padded, Option.map_some, Option.some.injEq]
    simp only [Int.ofNat_eq_natCast]
    omega
  · split
    · rw [readInt?, readNat?_digits (digitsOf_ne_nil _)
        fun _ => isAsciiDigit_of_mem_digitsOf, valueOf_digitsOf, Option.map_some,
        Option.some.injEq]
      simp only [Int.ofNat_eq_natCast]
      omega
    · rw [readInt?_digits (paddedDigits_ne_nil _ _) fun _ => isAsciiDigit_of_mem_paddedDigits,
        valueOf_paddedDigits, Option.some.injEq]
      omega

theorem yearChars_injective {left right : Int} (equal : yearChars left = yearChars right) :
    left = right := by
  have same := readInt?_yearChars left
  rw [equal, readInt?_yearChars] at same
  exact (Option.some.inj same).symm

namespace Date

theorem day_le (date : Date) : date.day ≤ 31 := by
  have bound := date.isDate.2.2.2
  unfold daysInMonth at bound
  split at bound
  · split at bound <;> omega
  · split at bound <;> omega

theorem month_le (date : Date) : date.month ≤ 12 :=
  date.isDate.2.1.2

theorem eq_of_parts {left right : Date} (year : left.year = right.year)
    (month : left.month = right.month) (day : left.day = right.day) : left = right := by
  cases left
  cases right
  simp_all

theorem chars_injective {left right : Date} (equal : left.chars = right.chars) : left = right := by
  have monthLength (date : Date) : (paddedDigits 2 date.month).length = 2 :=
    length_paddedDigits _ _ (by decide) (Nat.lt_of_le_of_lt date.month_le (by decide))
  have dayLength (date : Date) : (paddedDigits 2 date.day).length = 2 :=
    length_paddedDigits _ _ (by decide) (Nat.lt_of_le_of_lt date.day_le (by decide))
  unfold chars at equal
  obtain ⟨year, rest⟩ := List.append_inj' equal (by simp [monthLength, dayLength])
  obtain ⟨month, day⟩ := List.append_inj (List.cons.inj rest).2 (by simp [monthLength])
  exact eq_of_parts (yearChars_injective year) (paddedDigits_injective month)
    (paddedDigits_injective (List.cons.inj day).2)

theorem letterT_not_mem_chars (date : Date) : 'T' ∉ date.chars := by
  have notDigit : ∀ c, isAsciiDigit c = true → 'T' ≠ c := by
    rintro _ digit rfl
    simp [isAsciiDigit] at digit
  have padded (width value : Nat) : 'T' ∉ paddedDigits width value :=
    fun member => notDigit 'T' (isAsciiDigit_of_mem_paddedDigits member) rfl
  have year : 'T' ∉ yearChars date.year := by
    unfold yearChars
    split
    · simp [padded]
    · split
      · simpa using fun member => notDigit 'T' (isAsciiDigit_of_mem_digitsOf member) rfl
      · exact padded 4 _
  simp [chars, year, padded]

theorem rank_injective {left right : Date} (equal : left.rank = right.rank) : left = right := by
  have leftDay := left.day_le
  have rightDay := right.day_le
  have leftMonth := left.month_le
  have rightMonth := right.month_le
  unfold rank at equal
  exact eq_of_parts (by omega) (by omega) (by omega)

end Date

namespace Time

/-- The digits of the fraction, filled up to nine, are the nanoseconds of the second. -/
theorem valueOf_fractionChars (time : Time) :
    valueOf (time.fractionChars.tail ++ List.replicate (10 - time.fractionChars.length) '0') =
      time.nano % nanosPerSecond := by
  have bound : time.nano % nanosPerSecond < 1000000000 := Nat.mod_lt _ (by decide)
  unfold fractionChars
  dsimp only
  generalize time.nano % nanosPerSecond = nano at bound ⊢
  split
  · rename_i whole
    rw [whole]
    decide
  · split
    · rename_i milli
      have length := length_paddedDigits 3 (nano / 1000000) (by decide) (by omega)
      rw [List.tail_cons, List.length_cons, length, valueOf_append, valueOf_paddedDigits,
        valueOf_replicate_zero, List.length_replicate]
      omega
    · split
      · rename_i micro
        have length := length_paddedDigits 6 (nano / 1000) (by decide) (by omega)
        rw [List.tail_cons, List.length_cons, length, valueOf_append, valueOf_paddedDigits,
          valueOf_replicate_zero, List.length_replicate]
        omega
      · have length := length_paddedDigits 9 nano (by decide) (by omega)
        rw [List.tail_cons, List.length_cons, length, valueOf_append, valueOf_paddedDigits,
          valueOf_replicate_zero, List.length_replicate]
        omega

theorem length_clockChars (time : Time) : time.clockChars.length = 8 := by
  obtain ⟨second, nano, bound, isTime⟩ := time
  unfold secondsPerDay at bound
  unfold nanosPerSecond at isTime
  have hour := length_paddedDigits 2 (second / 3600) (by decide) (by omega)
  have minute := length_paddedDigits 2 (second / 60 % 60) (by decide) (by omega)
  have rest := length_paddedDigits 2 (second % 60 + nano / nanosPerSecond)
    (by decide) (by unfold nanosPerSecond; omega)
  simp [clockChars, hour, minute, rest]

theorem chars_injective {left right : Time} (clock : left.clockChars = right.clockChars)
    (fraction : left.fractionChars = right.fractionChars) : left = right := by
  have sameNano := valueOf_fractionChars left
  rw [fraction, valueOf_fractionChars] at sameNano
  obtain ⟨leftSecond, leftNano, leftBound, leftTime⟩ := left
  obtain ⟨rightSecond, rightNano, rightBound, rightTime⟩ := right
  unfold secondsPerDay at leftBound rightBound
  unfold nanosPerSecond at leftTime rightTime
  have hourLength {second : Nat} (bound : second < 86400) :
      (paddedDigits 2 (second / 3600)).length = 2 :=
    length_paddedDigits _ _ (by decide) (by omega)
  have minuteLength (second : Nat) : (paddedDigits 2 (second / 60 % 60)).length = 2 :=
    length_paddedDigits _ _ (by decide) (by omega)
  obtain ⟨hour, afterHour⟩ := List.append_inj clock
    (by rw [hourLength leftBound, hourLength rightBound])
  obtain ⟨minute, afterMinute⟩ := List.append_inj (List.cons.inj afterHour).2
    (by rw [minuteLength, minuteLength])
  have sameHour := paddedDigits_injective hour
  have sameMinute := paddedDigits_injective minute
  -- A leap second shows as 60, which no other second does.
  have sameSecond := paddedDigits_injective (List.cons.inj afterMinute).2
  simp only [nanosPerSecond] at sameNano sameHour sameMinute sameSecond
  have seconds : leftSecond = rightSecond := by omega
  have nanos : leftNano = rightNano := by omega
  simp [seconds, nanos]

end Time

namespace DateTime

theorem eq_of_parts {left right : DateTime} (date : left.date = right.date)
    (time : left.time = right.time) : left = right := by
  cases left
  cases right
  simp_all

theorem takeWhile_date (date : Date) (rest : List Char) :
    (date.chars ++ 'T' :: rest).takeWhile (· != 'T') = date.chars := by
  have passes : ∀ c ∈ date.chars, (c != 'T') = true := by
    intro c member
    rw [bne_iff_ne]
    rintro rfl
    exact date.letterT_not_mem_chars member
  rw [List.takeWhile_append_of_pos passes]
  simp

theorem text_injective {left right : DateTime} (equal : left.text = right.text) : left = right := by
  have chars := congrArg String.toList equal
  simp only [text, secondChars, String.toList_ofList, List.append_assoc, List.cons_append] at chars
  have dates := congrArg (List.takeWhile (· != 'T')) chars
  rw [takeWhile_date, takeWhile_date] at dates
  rw [dates, List.append_cancel_left_eq, List.cons.injEq] at chars
  have time := chars.2
  obtain ⟨clock, fraction⟩ := List.append_inj time
    (by rw [Time.length_clockChars, Time.length_clockChars])
  exact eq_of_parts (Date.chars_injective dates) (Time.chars_injective clock fraction)

theorem rank_injective {left right : DateTime} (equal : left.rank = right.rank) : left = right := by
  have nanoBound (time : Time) : time.nano < 2000000000 := by
    have isTime := time.isTime.2
    unfold nanosPerSecond at isTime
    omega
  have secondBound (time : Time) : time.second < 86400 := time.isTime.1
  have leftNano := nanoBound left.time
  have rightNano := nanoBound right.time
  have leftSecond := secondBound left.time
  have rightSecond := secondBound right.time
  simp only [rank, secondsPerDay, nanosPerSecond] at equal
  have date : left.date.rank = right.date.rank := by omega
  have second : left.time.second = right.time.second := by omega
  have nano : left.time.nano = right.time.nano := by omega
  refine eq_of_parts (Date.rank_injective date) ?_
  cases leftTime : left.time
  cases rightTime : right.time
  simp_all

end DateTime

theorem Date.text_injective {left right : Date} (equal : left.text = right.text) : left = right := by
  have chars := congrArg String.toList equal
  simp only [text, String.toList_ofList] at chars
  exact chars_injective chars

end Calendar

end TableSieve
