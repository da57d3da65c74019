import TableSieve.Proofs.Runs

/-!
The lexemes of a text. A lexeme is a beginning of what is left, made of the characters of its
alternative, and nothing but blanks lies between two lexemes. So the tokens of a text keep every
character that is not white space, and a character that no other alternative takes is a token.
-/

namespace TableSieve

open TableSieve.Formula (after?_eq_some_iff)
open TableSieve.Lexeme TableSieve.Number TableSieve.Text

/-! Characters. -/

namespace Text

theorem isWord_of_isDecimalDigit {c : Char} (digit : isDecimalDigit c = true) :
    isWord c = true := by
  have within : (decimalDigitRanges.all fun digits => wordRanges.any fun words =>
      words.1.ble digits.1 && digits.2.ble words.2) = true := by decide +kernel
  simp only [List.all_eq_true, List.any_eq_true, Bool.and_eq_true, Nat.ble_eq] at within
  rw [isDecimalDigit] at digit
  rw [isWord]
  split at digit
  · rename_i ascii
    rw [if_pos ascii, isAsciiWord, digit]
    rfl
  · rename_i notAscii
    rw [if_neg notAscii]
    simp only [inRanges, List.any_eq_true, Bool.and_eq_true, decide_eq_true_eq] at digit ⊢
    obtain ⟨digits, listed, lower, upper⟩ := digit
    obtain ⟨words, wordsListed, below, above⟩ := within digits listed
    exact ⟨words, wordsListed, Nat.le_trans below lower, Nat.le_trans upper above⟩

theorem withoutBlanks_append (front back : List Char) :
    withoutBlanks (front ++ back) = withoutBlanks front ++ withoutBlanks back :=
  List.filter_append ..

theorem withoutBlanks_withoutBlanks (chars : List Char) :
    withoutBlanks (withoutBlanks chars) = withoutBlanks chars := by
  simp [withoutBlanks]

theorem mem_withoutBlanks {c : Char} {chars : List Char} :
    c ∈ withoutBlanks chars ↔ c ∈ chars ∧ isBlank c = false := by
  simp [withoutBlanks]

theorem withoutBlanks_squeezeBlanks (chars : List Char) :
    withoutBlanks (squeezeBlanks chars) = withoutBlanks chars := by
  have space : isBlank ' ' = true := by decide
  fun_induction squeezeBlanks chars with
  | case1 => rfl
  | case2 c blank next more nextBlank ih => simp_all [withoutBlanks]
  | case3 c blank next more nextSolid ih => simp_all [withoutBlanks]
  | case4 c blank => simp_all [withoutBlanks]
  | case5 c rest solid ih => simp_all [withoutBlanks]

end Text

namespace Lexeme

theorem isWordPart_of_isDecimalDigit {c : Char} (digit : isDecimalDigit c = true) :
    isWordPart c = true := by
  simp [isWordPart, isWord_of_isDecimalDigit digit]

def isNumberPart (c : Char) : Bool :=
  c == '-' || isWordPart c

/-! Numbers. -/

/-- What the step matches is a beginning of the text, of number characters, and it is matched as
well if the text is cut off somewhere behind it. -/
def Contained (step? : List Char → Option (List Char)) : Prop :=
  ∀ chars after, step? chars = some after →
    ∃ text, chars = text ++ after ∧ (∀ c ∈ text, isNumberPart c = true) ∧
      ∀ kept, kept <+: after → step? (text ++ kept) = some kept

def Lasting (step? : List Char → Option (List Char)) : Prop :=
  ∀ chars rest, step? (chars ++ rest) = none → step? chars = none

theorem contained_after? {expected : List Char}
    (parts : ∀ c ∈ expected, isNumberPart c = true) : Contained (after? expected) :=
  fun _ _ found => ⟨expected, after?_eq_some_iff.mp found, parts,
    fun _ _ => after?_eq_some_iff.mpr rfl⟩

theorem contained_afterDigits? : Contained afterDigits? := by
  intro chars after found
  cases chars with
  | nil => cases found
  | cons c rest =>
      rw [afterDigits?] at found
      split at found
      · rename_i digit
        obtain rfl := Option.some.inj found
        have allDigits : ∀ d ∈ rest.takeWhile isDecimalDigit, isDecimalDigit d = true :=
          fun _ => List.mem_takeWhile_imp
        refine ⟨c :: rest.takeWhile isDecimalDigit, ?_, ?_, ?_⟩
        · rw [List.cons_append, List.takeWhile_append_dropWhile]
        · refine List.forall_mem_cons.mpr ⟨?_, fun d member => ?_⟩
          · simp [isNumberPart, isWordPart_of_isDecimalDigit digit]
          · simp [isNumberPart, isWordPart_of_isDecimalDigit (allDigits d member)]
        · intro kept cut
          have stops : ∀ d more, kept = d :: more → isDecimalDigit d = false := by
            rintro d more rfl
            obtain ⟨behind, same⟩ := cut
            have notDigit := List.head?_dropWhile_not isDecimalDigit rest
            simpa [← same] using notDigit
          rw [List.cons_append, afterDigits?, if_pos digit, dropWhile_append_of_breaks stops,
            List.dropWhile_eq_nil_iff.mpr allDigits, List.nil_append]
      · cases found

theorem Contained.bind {first next : List Char → Option (List Char)} (firstFits : Contained first)
    (nextFits : Contained next) : Contained fun chars => (first chars).bind next := by
  intro chars after found
  obtain ⟨middle, start, finish⟩ := Option.bind_eq_some_iff.mp found
  obtain ⟨front, rfl, frontParts, frontCut⟩ := firstFits chars middle start
  obtain ⟨back, rfl, backParts, backCut⟩ := nextFits middle after finish
  refine ⟨front ++ back, (List.append_assoc ..).symm,
    List.forall_mem_append.mpr ⟨frontParts, backParts⟩, ?_⟩
  intro kept cut
  have longer : back ++ kept <+: back ++ after := (List.prefix_append_right_inj back).mpr cut
  simp only [List.append_assoc, frontCut _ longer, Option.bind_some, backCut kept cut]

theorem endsWord_of_prefix {kept after : List Char} (cut : kept <+: after)
    (ends : endsWord after = true) : endsWord kept = true := by
  obtain ⟨behind, rfl⟩ := cut
  cases kept with
  | nil => rfl
  | cons c kept => exact ends

theorem Contained.endsWord {step? : List Char → Option (List Char)} (fits : Contained step?) :
    Contained fun chars => (step? chars).filter endsWord := by
  intro chars after found
  obtain ⟨matched, ends⟩ := Option.filter_eq_some_iff.mp found
  obtain ⟨text, split, parts, textCut⟩ := fits chars after matched
  refine ⟨text, split, parts, fun kept cut => ?_⟩
  exact Option.filter_eq_some_iff.mpr ⟨textCut kept cut, endsWord_of_prefix cut ends⟩

theorem Contained.skip {step? : List Char → Option (List Char)} (fits : Contained step?)
    (lasting : Lasting step?) : Contained fun chars => some (skip step? chars) := by
  intro chars after found
  have same : Lexeme.skip step? chars = after := Option.some.inj found
  cases matched : step? chars with
  | none =>
      rw [Lexeme.skip, matched, Option.getD_none] at same
      obtain rfl := same
      refine ⟨[], rfl, by simp, ?_⟩
      rintro kept ⟨behind, rfl⟩
      simp [Lexeme.skip, lasting kept behind matched]
  | some rest =>
      rw [Lexeme.skip, matched, Option.getD_some] at same
      obtain rfl := same
      obtain ⟨text, split, parts, textCut⟩ := fits chars rest matched
      refine ⟨text, split, parts, fun kept cut => ?_⟩
      simp [Lexeme.skip, textCut kept cut]

theorem lasting_afterDigits? : Lasting afterDigits? := by
  intro chars rest none
  cases chars with
  | nil => rfl
  | cons c chars =>
      simp only [List.cons_append, afterDigits?] at none ⊢
      split at none
      · cases none
      · rename_i notDigit
        exact if_neg notDigit

theorem lasting_afterFraction? : Lasting afterFraction? := by
  intro chars rest none
  match chars with
  | [] => rfl
  | c :: chars =>
      by_cases point : c = '.'
      · simp only [List.cons_append, afterFraction?, after?, point, if_true,
          Option.bind_some] at none ⊢
        exact lasting_afterDigits? chars rest none
      · simp [afterFraction?, after?, point]

theorem lasting_afterExponent? : Lasting afterExponent? := by
  intro chars rest none
  match chars with
  | [] => rfl
  | [_] => rfl
  | mark :: sign :: chars =>
      simp only [List.cons_append, afterExponent?] at none ⊢
      split at none
      · rename_i marks
        rw [if_pos marks]
        by_cases signs : sign = '+' ∨ sign = '-'
        · rw [if_pos signs] at none ⊢
          exact lasting_afterDigits? chars rest none
        · rw [if_neg signs] at none ⊢
          exact lasting_afterDigits? (sign :: chars) rest none
      · rename_i notMark
        exact if_neg notMark

theorem contained_afterFraction? : Contained afterFraction? :=
  (contained_after? (by simp [isNumberPart, isWordPart])).bind contained_afterDigits?

theorem contained_afterExponent? : Contained afterExponent? := by
  intro chars after found
  match chars with
  | [] => cases found
  | [_] => cases found
  | mark :: sign :: rest =>
      rw [afterExponent?] at found
      split at found
      · rename_i marks
        have markPart : isNumberPart mark = true := by
          rcases marks with rfl | rfl <;> decide
        split at found
        · rename_i signs
          have signPart : isNumberPart sign = true := by
            rcases signs with rfl | rfl <;> decide
          obtain ⟨digits, rfl, parts, cut⟩ := contained_afterDigits? rest after found
          refine ⟨mark :: sign :: digits, rfl, List.forall_mem_cons.mpr ⟨markPart,
            List.forall_mem_cons.mpr ⟨signPart, parts⟩⟩, fun kept shorter => ?_⟩
          simp only [List.cons_append, afterExponent?, if_pos marks, if_pos signs]
          exact cut kept shorter
        · rename_i notSign
          obtain ⟨digits, split, parts, cut⟩ := contained_afterDigits? (sign :: rest) after found
          cases digits with
          | nil =>
              have shorter := afterDigits?_length found
              rw [split, List.nil_append] at shorter
              exact absurd shorter (Nat.lt_irrefl _)
          | cons first digits =>
              obtain ⟨rfl, rfl⟩ := List.cons.inj split
              refine ⟨mark :: sign :: digits, rfl, List.forall_mem_cons.mpr ⟨markPart, parts⟩,
                fun kept shorter => ?_⟩
              simp only [List.cons_append, afterExponent?, if_pos marks, if_neg notSign]
              exact cut kept shorter
      · cases found

theorem contained_afterScientific? : Contained afterScientific? :=
  contained_afterDigits?.bind
    ((contained_afterFraction?.skip lasting_afterFraction?).bind contained_afterExponent?).endsWord

theorem contained_afterNegative? : Contained afterNegative? := by
  have tail : Contained fun chars => some (skip afterExponent? (skip afterFraction? chars)) :=
    (contained_afterFraction?.skip lasting_afterFraction?).bind
      (contained_afterExponent?.skip lasting_afterExponent?)
  have minus : Contained (after? ['-']) := contained_after? (by simp [isNumberPart])
  have steps := (minus.bind contained_afterDigits?).bind tail
  simp only [Option.bind_assoc] at steps
  exact steps

theorem exists_number {chars after : List Char}
    (number : (afterNegative? chars).or (afterScientific? chars) = some after) :
    ∃ text, chars = text ++ after ∧ (∀ c ∈ text, isNumberPart c = true) ∧
      (afterNegative? text).or (afterScientific? text) = some [] := by
  rcases Option.or_eq_some_iff.mp number with negative | ⟨_, scientific⟩
  · obtain ⟨text, split, parts, cut⟩ := contained_afterNegative? chars after negative
    have whole := cut [] List.nil_prefix
    rw [List.append_nil] at whole
    exact ⟨text, split, parts, by rw [whole, Option.some_or]⟩
  · obtain ⟨text, split, parts, cut⟩ := contained_afterScientific? chars after scientific
    have whole := cut [] List.nil_prefix
    rw [List.append_nil] at whole
    refine ⟨text, split, parts, ?_⟩
    obtain ⟨c, rest, rfl, digit⟩ := exists_digit_of_afterScientific? whole
    have notNegative : afterNegative? (c :: rest) = none := by
      cases negative : afterNegative? (c :: rest) with
      | none => rfl
      | some _ =>
          rw [eq_minus_of_afterNegative? negative] at digit
          exact absurd digit (by decide)
    rw [notNegative, whole, Option.none_or]

/-! Operators. -/

def IsOperatorText (text : List Char) : Prop :=
  text = ['I', 'S'] ∨ text ∈ symbols ∨
    ∃ blanks, blanks ≠ [] ∧ (∀ c ∈ blanks, isBlank c = true) ∧
      text = ['I', 'S'] ++ (blanks ++ ['N', 'O', 'T'])

theorem exists_of_afterIsNot? {chars after : List Char}
    (found : afterIsNot? chars = some after) :
    ∃ blanks, blanks ≠ [] ∧ (∀ c ∈ blanks, isBlank c = true) ∧
      chars = ['I', 'S'] ++ (blanks ++ ['N', 'O', 'T']) ++ after := by
  rw [afterIsNot?] at found
  split at found
  · rename_i c rest start
    split at found
    · rename_i blank
      have word := after?_eq_some_iff.mp (Option.filter_eq_some_iff.mp found).1
      have run : rest.takeWhile isBlank ++ dropBlanks rest = rest :=
        List.takeWhile_append_dropWhile
      refine ⟨c :: rest.takeWhile isBlank, List.cons_ne_nil _ _, ?_, ?_⟩
      · exact List.forall_mem_cons.mpr ⟨blank, fun _ => List.mem_takeWhile_imp⟩
      · have behind : c :: rest = (c :: rest.takeWhile isBlank) ++ (['N', 'O', 'T'] ++ after) := by
          rw [← word, List.cons_append, run]
        rw [after?_eq_some_iff.mp start, behind]
        simp only [List.append_assoc]
    · cases found
  · cases found

theorem exists_operator {chars after : List Char} (found : afterOperator? chars = some after) :
    ∃ text, chars = text ++ after ∧ IsOperatorText text := by
  rcases Option.or_eq_some_iff.mp found with isNot | ⟨_, rest⟩
  · obtain ⟨blanks, some, blank, split⟩ := exists_of_afterIsNot? isNot
    exact ⟨_, split, .inr (.inr ⟨blanks, some, blank, rfl⟩)⟩
  rcases Option.or_eq_some_iff.mp rest with test | ⟨_, symbol⟩
  · have split := after?_eq_some_iff.mp (Option.filter_eq_some_iff.mp test).1
    exact ⟨_, split, .inl rfl⟩
  · obtain ⟨text, listed, matched⟩ := List.exists_of_findSome?_eq_some symbol
    exact ⟨text, after?_eq_some_iff.mp matched, .inr (.inl listed)⟩

/-! Lexemes of every shape. -/

def Shape.Fits (shape : Shape) (text : List Char) : Prop :=
  match shape with
  | .date => ∃ raw, IsDateText raw ∧ withoutBlanks text = dateChars raw
  | .openParen => text = ['(']
  | .closeParen => text = [')']
  | .operator => IsOperatorText text
  | .number => (∀ c ∈ text, isNumberPart c = true) ∧
      (afterNegative? text).or (afterScientific? text) = some []
  | .word => text ≠ [] ∧ ∀ c ∈ text, isWordPart c = true
  | .other => ∃ c, text = [c]

theorem Shape.Fits.ne_nil {shape : Shape} {text : List Char} (fits : shape.Fits text) :
    text ≠ [] := by
  rintro rfl
  cases shape with
  | date =>
      obtain ⟨raw, _, same⟩ := fits
      cases same
  | operator =>
      rcases fits with same | listed | ⟨blanks, _, _, same⟩
      · cases same
      · exact absurd listed (by decide)
      · cases same
  | number => cases fits.2
  | word => exact fits.1 rfl
  | openParen | closeParen => cases fits
  | other =>
      obtain ⟨c, same⟩ := fits
      cases same

theorem exists_text_of_first {c : Char} {rest after : List Char} {shape : Shape}
    (found : first c rest = (shape, after)) :
    ∃ text, c :: rest = text ++ after ∧ shape.Fits text := by
  rw [first] at found
  split at found
  · rename_i remaining date
    obtain ⟨rfl, rfl⟩ := Prod.mk.inj found
    obtain ⟨text, raw, split, isDate, chars⟩ := isDateText_of_afterDate? date
    exact ⟨text, split, raw, isDate, chars⟩
  split at found
  · rename_i opens
    obtain ⟨rfl, rfl⟩ := Prod.mk.inj found
    exact ⟨['('], by rw [opens]; rfl, rfl⟩
  split at found
  · rename_i closes
    obtain ⟨rfl, rfl⟩ := Prod.mk.inj found
    exact ⟨[')'], by rw [closes]; rfl, rfl⟩
  split at found
  · rename_i remaining operator
    obtain ⟨rfl, rfl⟩ := Prod.mk.inj found
    exact exists_operator operator
  split at found
  · rename_i remaining number
    obtain ⟨rfl, rfl⟩ := Prod.mk.inj found
    obtain ⟨text, split, parts, whole⟩ := exists_number number
    exact ⟨text, split, parts, whole⟩
  split at found
  · rename_i remaining word
    obtain ⟨rfl, rfl⟩ := Prod.mk.inj found
    rw [afterWord?] at word
    split at word
    · rename_i part
      rw [← Option.some.inj word]
      refine ⟨c :: rest.takeWhile isWordPart, ?_, List.cons_ne_nil _ _, ?_⟩
      · rw [List.cons_append, List.takeWhile_append_dropWhile]
      · exact List.forall_mem_cons.mpr ⟨part, fun _ => List.mem_takeWhile_imp⟩
    · cases word
  · obtain ⟨rfl, rfl⟩ := Prod.mk.inj found
    exact ⟨[c], rfl, c, rfl⟩

theorem exists_first_eq (c : Char) (rest : List Char) :
    ∃ shape chars after, rest = chars ++ after ∧ first c rest = (shape, after) ∧
      shape.Fits (c :: chars) := by
  obtain ⟨text, split, fits⟩ := exists_text_of_first (Prod.mk.eta : _ = first c rest).symm
  obtain ⟨d, chars, rfl⟩ := List.exists_cons_of_ne_nil fits.ne_nil
  obtain ⟨rfl, same⟩ := List.cons.inj split
  exact ⟨_, chars, _, same, rfl, fits⟩

def isStray (c : Char) : Bool :=
  !(isBlank c || isNumberPart c || ['(', ')', '<', '>', '=', '!', '&', '|'].contains c)

theorem not_isStray_of_isBlank {c : Char} (blank : isBlank c = true) : isStray c = false := by
  simp [isStray, blank]

theorem not_isStray_of_isWordPart {c : Char} (part : isWordPart c = true) : isStray c = false := by
  simp [isStray, isNumberPart, part]

theorem not_isStray_dateChars {raw : List Char} (date : IsDateText raw) :
    ∀ c ∈ dateChars raw, isStray c = false := by
  obtain ⟨year, month, day, rfl, _, digits⟩ := date
  have inDigits : ∀ c ∈ year ++ (month ++ day), isStray c = false := fun c member =>
    not_isStray_of_isWordPart (isWordPart_of_isDecimalDigit (digits c member))
  intro c member
  simp only [dateChars, List.mem_append, List.mem_cons, List.not_mem_nil, or_false] at member
  by_cases isDigit : c ∈ year ++ (month ++ day)
  · exact inDigits c isDigit
  · have either : c ∈ ['D', 'A', 'T', 'E'] ∨ c ∈ ['(', '-', ')'] := by
      simp only [List.mem_append] at isDigit
      simp only [List.mem_cons, List.not_mem_nil, or_false]
      tauto
    have letters : ∀ d ∈ ['D', 'A', 'T', 'E'], isWordPart d = true := by
      simp [isWordPart, isWord, isAsciiWord]
    have signs : ∀ d ∈ ['(', '-', ')'], isStray d = false := by simp [isStray, isNumberPart]
    exact either.elim (fun letter => not_isStray_of_isWordPart (letters c letter)) (signs c)

theorem not_isStray_operator {text : List Char} (operator : IsOperatorText text) :
    ∀ c ∈ text, isStray c = false := by
  have letters : ∀ c ∈ ['I', 'S'] ++ ['N', 'O', 'T'], isWordPart c = true := by
    simp [isWordPart, isWord, isAsciiWord]
  obtain ⟨test, negation⟩ := List.forall_mem_append.mp fun c member =>
    not_isStray_of_isWordPart (letters c member)
  rcases operator with rfl | listed | ⟨blanks, _, blank, rfl⟩
  · exact test
  · have all : ∀ symbol ∈ symbols, ∀ c ∈ symbol, isStray c = false := by
      simp [symbols, isStray]
    exact all text listed
  · refine List.forall_mem_append.mpr ⟨test, List.forall_mem_append.mpr ⟨?_, negation⟩⟩
    exact fun c member => not_isStray_of_isBlank (blank c member)

theorem Shape.Fits.eq_other_of_isStray {shape : Shape} {text : List Char} (fits : shape.Fits text)
    {c : Char} (stray : isStray c = true) (member : c ∈ text) : shape = .other ∧ text = [c] := by
  have absurd {statement : Prop} (notStray : isStray c = false) : statement := by
    rw [stray] at notStray
    cases notStray
  cases shape with
  | other =>
      obtain ⟨d, rfl⟩ := fits
      obtain rfl := List.mem_singleton.mp member
      exact ⟨rfl, rfl⟩
  | date =>
      obtain ⟨raw, isDate, same⟩ := fits
      cases blank : isBlank c with
      | true => exact absurd (not_isStray_of_isBlank blank)
      | false =>
          have written := mem_withoutBlanks.mpr ⟨member, blank⟩
          rw [same] at written
          exact absurd (not_isStray_dateChars isDate c written)
  | openParen =>
      obtain rfl : c = '(' := by simpa [show text = ['('] from fits] using member
      exact absurd (by decide)
  | closeParen =>
      obtain rfl : c = ')' := by simpa [show text = [')'] from fits] using member
      exact absurd (by decide)
  | operator => exact absurd (not_isStray_operator fits c member)
  | number => exact absurd (by simp [isStray, fits.1 c member])
  | word => exact absurd (not_isStray_of_isWordPart (fits.2 c member))

end Lexeme

/-! Tokens. -/

/-- What holds of the empty text, and goes on to a blank or a lexeme in front, holds of every text
with its tokens. -/
theorem tokensOf_induction {holds : List Char → List Token → Prop} (nil : holds [] [])
    (blank : ∀ c rest, isBlank c = true → holds rest (tokensOf rest) →
      holds (c :: rest) (tokensOf rest))
    (lexeme : ∀ shape c chars rest, isBlank c = false →
      first c (chars ++ rest) = (shape, rest) → shape.Fits (c :: chars) →
        holds rest (tokensOf rest) →
          holds (c :: chars ++ rest) (Token.ofLexeme shape (c :: chars) :: tokensOf rest))
    (chars : List Char) : holds chars (tokensOf chars) := by
  induction size : chars.length using Nat.strongRecOn generalizing chars with
  | ind _ shorter =>
      cases chars with
      | nil =>
          rw [tokensOf_nil]
          exact nil
      | cons c rest =>
          cases isBlank : isBlank c with
          | true =>
              rw [tokensOf_of_isBlank isBlank]
              exact blank c rest isBlank (shorter rest.length (by simp [← size]) rest rfl)
          | false =>
              obtain ⟨shape, chars, after, rfl, reads, fits⟩ := exists_first_eq c rest
              have less : after.length < (c :: (chars ++ after)).length := by
                simp only [List.length_cons, List.length_append]
                omega
              rw [← List.cons_append, tokensOf_of_first isBlank reads]
              exact lexeme shape c chars after isBlank reads fits
                (shorter after.length (size ▸ less) after rfl)

theorem Token.withoutBlanks_text_ofLexeme (shape : Shape) (chars : List Char) :
    withoutBlanks (Token.ofLexeme shape chars).text.toList = withoutBlanks chars := by
  cases shape with
  | date => simp [Token.ofLexeme, withoutBlanks_withoutBlanks]
  | operator => simp [Token.ofLexeme, withoutBlanks_squeezeBlanks]
  | word => simp [Token.ofLexeme, Token.text_ofWord]
  | openParen | closeParen | number | other => simp [Token.ofLexeme]

theorem withoutBlanks_tokensOf (chars : List Char) :
    withoutBlanks ((tokensOf chars).flatMap fun token => token.text.toList) =
      withoutBlanks chars := by
  induction chars using tokensOf_induction with
  | nil => rfl
  | blank c rest blank ih =>
      rw [ih]
      simp [withoutBlanks, blank]
  | lexeme shape c chars rest _ _ _ ih =>
      rw [List.flatMap_cons, withoutBlanks_append, Token.withoutBlanks_text_ofLexeme, ih,
        ← withoutBlanks_append]

theorem stray_mem_tokensOf {c : Char} (stray : isStray c = true) {chars : List Char} :
    c ∈ chars → ⟨.operator, String.ofList [c]⟩ ∈ tokensOf chars := by
  induction chars using tokensOf_induction with
  | nil => exact fun member => absurd member List.not_mem_nil
  | blank d rest blank ih =>
      intro member
      rcases List.mem_cons.mp member with rfl | later
      · rw [not_isStray_of_isBlank blank] at stray
        cases stray
      · exact ih later
  | lexeme shape d chars rest _ _ fits ih =>
      intro member
      rcases List.mem_append.mp member with inside | later
      · obtain ⟨rfl, text⟩ := fits.eq_other_of_isStray stray inside
        rw [text]
        exact List.mem_cons_self ..
      · exact List.mem_cons_of_mem _ (ih later)

theorem text_ne_empty_of_mem_tokensOf {chars : List Char} :
    ∀ token ∈ tokensOf chars, token.text ≠ "" := by
  induction chars using tokensOf_induction with
  | nil => simp
  | blank c rest _ ih => exact ih
  | lexeme shape c chars rest notBlank _ _ ih =>
      refine List.forall_mem_cons.mpr ⟨?_, ih⟩
      intro empty
      have same := Token.withoutBlanks_text_ofLexeme shape (c :: chars)
      rw [empty] at same
      simp [withoutBlanks, notBlank] at same

/-- Tokens are not empty, and together they have the characters of the text in their order, but
for white space. So a character that is not white space is in some token, and a stray one is a token
by itself. -/
theorem tokenize_keeps_characters (text : String) :
    (∀ token ∈ tokenize text, token.text ≠ "") ∧
    withoutBlanks (String.join ((tokenize text).map Token.text)).toList =
      withoutBlanks text.toList ∧
    ∀ c ∈ text.toList, isBlank c = false →
      (∃ token ∈ tokenize text, c ∈ token.text.toList) ∧
        (isStray c = true → ⟨.operator, String.ofList [c]⟩ ∈ tokenize text) := by
  have kept := withoutBlanks_tokensOf text.toList
  refine ⟨text_ne_empty_of_mem_tokensOf, ?_, fun c member notBlank => ⟨?_, fun stray => ?_⟩⟩
  · rw [String.toList_join, List.flatMap_map]
    exact kept
  · have inTokens := mem_withoutBlanks.mpr ⟨member, notBlank⟩
    rw [← kept] at inTokens
    exact List.mem_flatMap.mp (mem_withoutBlanks.mp inTokens).1
  · exact stray_mem_tokensOf stray member

end TableSieve
