import TableSieve.Proofs.Accepting
import TableSieve.Proofs.Lexing
import TableSieve.Proofs.NumberText

/-!
Tokens in writing: the texts of operands and operators that are read as one token each before a
break.
-/

namespace TableSieve

open TableSieve.Formula (after?_eq_some_iff)
open TableSieve.Lexeme TableSieve.Number TableSieve.Text

/-! Words. -/

theorem lexes_word {c : Char} {word : List Char} (alone : first c word = (.word, [])) :
    Lexes (c :: word) [Token.ofWord (c :: word)] := by
  obtain ⟨_, _, _, _, _, whole⟩ := first_eq_word_iff.mp alone
  have part := isWordPart_of_afterWord? whole c (List.mem_cons_self ..)
  exact lexes_of_first .word (not_isBlank_of_isWordPart part) fun _ => first_word_append alone

theorem lexes_plus : Lexes ['+'] [⟨.operator, "+"⟩] :=
  lexes_word (by decide)

theorem lexes_missing : Lexes missingWord.toList [⟨.missing, missingWord⟩] :=
  show Lexes ('p' :: ['d', '.', 'N', 'A']) _ from lexes_word (by decide)

theorem Token.text_ofLexeme_of_kind {shape : Shape} {chars : List Char}
    (kind : (Token.ofLexeme shape chars).kind = .identifier ∨
      (Token.ofLexeme shape chars).kind = .number) :
    (shape = .word ∨ shape = .number) ∧
      (Token.ofLexeme shape chars).text = String.ofList chars := by
  cases shape <;> simp_all [Token.ofLexeme, Token.text_ofWord]

theorem length_text_le {chars : List Char} {token : Token} (member : token ∈ tokensOf chars)
    (kind : token.kind = .identifier ∨ token.kind = .number) :
    token.text.toList.length ≤ chars.length := by
  obtain ⟨c, rest, shorter, rfl⟩ := exists_lexeme_of_mem_tokensOf member
  rw [(Token.text_ofLexeme_of_kind kind).2, String.toList_ofList]
  exact Nat.le_trans (List.length_take_le' _ _) shorter

theorem first_of_tokenize {token : Token} (alone : tokenize token.text = [token])
    (kind : token.kind = .identifier ∨ token.kind = .number) :
    ∃ c word, token.text.toList = c :: word ∧ (first c word).2 = [] ∧
      Token.ofLexeme (first c word).1 (c :: word) = token := by
  rw [tokenize] at alone
  cases chars : token.text.toList with
  | nil =>
      rw [chars, tokensOf_nil] at alone
      cases alone
  | cons c word =>
      rw [chars] at alone
      cases blank : isBlank c with
      | true =>
          rw [tokensOf_of_isBlank blank] at alone
          have member : token ∈ tokensOf word := by simp [alone]
          have bound := length_text_le member kind
          rw [chars, List.length_cons] at bound
          omega
      | false =>
          have size := Lexeme.first_length c word
          rw [tokensOf_cons blank] at alone
          obtain ⟨single, _⟩ := List.cons.inj alone
          have text := congrArg (fun token => token.text.toList) single
          simp only [(Token.text_ofLexeme_of_kind (single ▸ kind)).2, String.toList_ofList,
            chars] at text
          have length := congrArg List.length text
          rw [List.length_take, List.length_cons] at length
          have nothing : (first c word).2 = [] := List.eq_nil_of_length_eq_zero (by omega)
          rw [text] at single
          exact ⟨c, word, rfl, nothing, single⟩

theorem first_of_tokenize_name {name : String} (alone : tokenize name = [⟨.identifier, name⟩]) :
    ∃ c word, name.toList = c :: word ∧ first c word = (.word, []) ∧
      Token.ofWord (c :: word) = ⟨.identifier, name⟩ := by
  have alone : tokenize (Token.mk .identifier name).text = [⟨.identifier, name⟩] := alone
  obtain ⟨c, word, same, nothing, single⟩ := first_of_tokenize alone (.inl rfl)
  have identifier : (Token.ofLexeme (first c word).1 (c :: word)).kind = .identifier := by
    rw [single]
  refine ⟨c, word, same, Prod.ext ?_ nothing, ?_⟩
  · rcases (Token.text_ofLexeme_of_kind (.inl identifier)).1 with isWord | isNumber
    · exact isWord
    · rw [isNumber] at identifier
      cases identifier
  · rw [← Token.ofLexeme_of_identifier identifier, single]

theorem lexes_name {name : String} (alone : tokenize name = [⟨.identifier, name⟩]) :
    Lexes name.toList [⟨.identifier, name⟩] := by
  obtain ⟨c, word, same, single, token⟩ := first_of_tokenize_name alone
  rw [same, ← token]
  exact lexes_word single

/-! Numbers. -/

section Numbers

variable {text : DecimalText}

theorem afterDigits?_append {digits : List Char} (some : digits ≠ [])
    (allDigits : ∀ c ∈ digits, isAsciiDigit c = true) (rest : List Char)
    (ends : ∀ c more, rest = c :: more → isDecimalDigit c = false) :
    afterDigits? (digits ++ rest) = .some rest := by
  obtain ⟨c, more, rfl⟩ := List.exists_cons_of_ne_nil some
  obtain ⟨first, others⟩ := List.forall_mem_cons.mp allDigits
  have none : more.dropWhile isDecimalDigit = [] :=
    List.dropWhile_eq_nil_iff.mpr fun c member => isDecimalDigit_of_isAsciiDigit (others c member)
  rw [List.cons_append, afterDigits?, if_pos (isDecimalDigit_of_isAsciiDigit first),
    dropWhile_append_of_breaks ends, none, List.nil_append]

theorem afterDigits?_whole {digits : List Char} (some : digits ≠ [])
    (allDigits : ∀ c ∈ digits, isAsciiDigit c = true) : afterDigits? digits = .some [] := by
  have whole := afterDigits?_append some allDigits [] (by simp)
  rwa [List.append_nil] at whole

namespace Number.DecimalText

theorem head_exponentChars {c : Char} {more : List Char}
    (same : text.exponentChars = c :: more) : c = 'e' := by
  rw [exponentChars] at same
  split at same
  · cases same
  · exact (List.cons.inj same).1.symm

theorem afterDigits?_chars (proper : text.Proper) :
    afterDigits? text.chars = some (text.fractionChars ++ text.exponentChars) := by
  refine afterDigits?_append proper.starts proper.wholeDigits _ ?_
  intro c more same
  rw [fractionChars] at same
  split at same
  · rw [head_exponentChars same]
    decide
  · rw [← (List.cons.inj same).1]
    decide

theorem skip_fraction (proper : text.Proper) :
    skip afterFraction? (text.fractionChars ++ text.exponentChars) = text.exponentChars := by
  rw [fractionChars]
  split
  · rw [List.nil_append, skip, afterFraction?]
    cases same : text.exponentChars with
    | nil => rfl
    | cons c more =>
        rw [head_exponentChars same]
        rfl
  · rename_i some
    have digits := afterDigits?_append some proper.fractionDigits text.exponentChars
      (by
        intro c more same
        rw [head_exponentChars same]
        decide)
    simp [skip, afterFraction?, after?, digits]

theorem afterExponent?_exponentChars (proper : text.Proper) (some : text.power ≠ []) :
    afterExponent? text.exponentChars = .some [] := by
  have power := afterDigits?_whole some proper.powerDigits
  rw [exponentChars, if_neg some]
  rcases proper.signed with same | same | same
  · obtain ⟨c, more, whole⟩ := List.exists_cons_of_ne_nil some
    have notSign := not_isAsciiDigit_sign (proper.powerDigits c (by simp [whole]))
    rw [whole] at power
    simp [same, whole, afterExponent?, notSign, power]
  · simp [same, afterExponent?, power]
  · simp [same, afterExponent?, power]

theorem afterScientific?_chars (proper : text.Proper) :
    afterScientific? text.chars = if text.power = [] then none else some [] := by
  rw [afterScientific?, afterDigits?_chars proper]
  simp only [Option.bind_eq_bind, Option.bind_some, skip_fraction proper]
  split
  · rename_i noPower
    rw [exponentChars, if_pos noPower]
    rfl
  · rename_i some
    rw [afterExponent?_exponentChars proper some]
    rfl

theorem afterNegative?_chars (proper : text.Proper) :
    afterNegative? ('-' :: text.chars) = some [] := by
  have exponent : skip afterExponent? text.exponentChars = [] := by
    rw [skip]
    by_cases noPower : text.power = []
    · rw [exponentChars, if_pos noPower]
      rfl
    · rw [afterExponent?_exponentChars proper noPower]
      rfl
  simp [afterNegative?, after?, afterDigits?_chars proper, skip_fraction proper, exponent]

end Number.DecimalText

structure StartsNumber (c : Char) : Prop where
  notDate : c ≠ 'D'
  notTest : c ≠ 'I'
  notOpen : c ≠ '('
  notClose : c ≠ ')'
  notSymbol : ∀ symbol ∈ symbols, ∀ first more, symbol = first :: more → c ≠ first

theorem startsNumber_of_isDecimalDigit {c : Char} (digit : isDecimalDigit c = true) :
    StartsNumber c := by
  have different : ∀ other, isDecimalDigit other = false → c ≠ other := by
    rintro _ notDigit rfl
    rw [digit] at notDigit
    cases notDigit
  refine ⟨different _ rfl, different _ rfl, different _ rfl, different _ rfl, ?_⟩
  intro symbol listed first more same
  refine different first ?_
  have all : ∀ symbol ∈ symbols, symbol.head?.all fun first => !isDecimalDigit first := by decide
  have head := all symbol listed
  rw [same] at head
  simpa using head

theorem startsNumber_minus : StartsNumber '-' := by
  refine ⟨by decide, by decide, by decide, by decide, ?_⟩
  intro symbol listed first more same
  have all : ∀ symbol ∈ symbols, symbol.head? ≠ some '-' := by decide
  have head := all symbol listed
  rw [same] at head
  rintro rfl
  exact head rfl

theorem StartsNumber.noOperator {c : Char} (starts : StartsNumber c) (rest : List Char) :
    afterOperator? (c :: rest) = none := by
  have noSymbol : symbols.findSome? (fun symbol => after? symbol (c :: rest)) = none := by
    rw [List.findSome?_eq_none_iff]
    intro symbol listed
    cases symbol with
    | nil => exact absurd listed (by decide)
    | cons first more => simp [after?, starts.notSymbol _ listed first more rfl]
  simp [afterOperator?, afterIsNot?, afterWholeWord?, after?, starts.notTest, noSymbol]

theorem StartsNumber.noDate {c : Char} (starts : StartsNumber c) (rest : List Char) :
    afterDate? (c :: rest) = none := by
  simp [afterDate?, after?, starts.notDate]

theorem StartsNumber.first_number {c : Char} (starts : StartsNumber c) {rest after : List Char}
    (number : (afterNegative? (c :: rest)).or (afterScientific? (c :: rest)) = some after) :
    first c rest = (.number, after) := by
  simp [first, starts.noDate rest, starts.noOperator rest, starts.notOpen, starts.notClose, number]

theorem StartsNumber.first_word {c : Char} (starts : StartsNumber c) {rest after : List Char}
    (noNumber : (afterNegative? (c :: rest)).or (afterScientific? (c :: rest)) = none)
    (word : afterWord? (c :: rest) = some after) : first c rest = (.word, after) :=
  first_eq_word_iff.mpr ⟨starts.noDate rest, starts.notOpen, starts.notClose,
    starts.noOperator rest, noNumber, word⟩

theorem Number.DecimalText.isWordPart_chars (proper : text.Proper) (noPower : text.power = []) :
    ∀ c ∈ text.chars, isWordPart c = true := by
  have digits : ∀ {chars : List Char}, (∀ c ∈ chars, isAsciiDigit c = true) →
      ∀ c ∈ chars, isWordPart c = true := by
    intro chars all c member
    simp [isWordPart, isWord_of_isAsciiDigit (all c member)]
  rw [chars, exponentChars, if_pos noPower, List.append_nil, fractionChars]
  refine List.forall_mem_append.mpr ⟨digits proper.wholeDigits, ?_⟩
  split
  · simp
  · exact List.forall_mem_cons.mpr ⟨by decide, digits proper.fractionDigits⟩

theorem ofWord_number (proper : text.Proper) :
    Token.ofWord text.chars = ⟨.number, String.ofList text.chars⟩ := by
  obtain ⟨c, rest, same, digit⟩ := proper.exists_chars
  have reads := DecimalText.readFloat?_chars proper
  have number : isNumberWord text.chars = true := by
    rw [same] at reads ⊢
    simp [isNumberWord, digit, reads]
  have different : ∀ other : String, other.toList.head?.all (fun c => !isAsciiDigit c) = true →
      (String.ofList text.chars == other) = false := by
    intro other head
    rw [beq_eq_false_iff_ne]
    rintro rfl
    rw [String.toList_ofList, same] at head
    simp [digit] at head
  simp [Token.ofWord, different "+" (by decide), different missingWord (by decide), number]

theorem lexes_magnitude (proper : text.Proper) :
    Lexes text.chars [⟨.number, String.ofList text.chars⟩] := by
  obtain ⟨c, rest, same, digit⟩ := proper.exists_chars
  have starts := startsNumber_of_isDecimalDigit (isDecimalDigit_of_isAsciiDigit digit)
  have notNegative : afterNegative? (c :: rest) = none := by
    have notMinus := (not_isAsciiDigit_sign digit).2
    simp [afterNegative?, after?, notMinus]
  have scientific := DecimalText.afterScientific?_chars proper
  by_cases noPower : text.power = []
  · rw [if_pos noPower, same] at scientific
    have parts := DecimalText.isWordPart_chars proper noPower
    rw [same] at parts
    have alone : first c rest = (.word, []) :=
      starts.first_word (by rw [notNegative, scientific, Option.or_none])
        (afterWord?_of_isWordPart parts)
    have token := ofWord_number proper
    rw [same] at token ⊢
    rw [← token]
    exact lexes_word alone
  · rw [if_neg noPower, same] at scientific
    rw [same]
    refine lexes_of_first .number ?_ fun after breaks => ?_
    · exact not_isBlank_of_isWordPart (by simp [isWordPart, isWord_of_isAsciiDigit digit])
    · refine starts.first_number ?_
      rw [← List.cons_append, local_number breaks, notNegative, scientific]
      rfl

theorem lexes_negative (proper : text.Proper) :
    Lexes ('-' :: text.chars) [⟨.number, String.ofList ('-' :: text.chars)⟩] := by
  refine lexes_of_first .number (by decide) fun after breaks => ?_
  refine startsNumber_minus.first_number ?_
  rw [← List.cons_append, local_number breaks, DecimalText.afterNegative?_chars proper]
  rfl

end Numbers

theorem lexes_int (value : Int) :
    Lexes (intChars value) [⟨.number, intText value⟩] := by
  have proper : (DecimalText.mk (digitsOf value.natAbs) [] [] []).Proper := by
    refine ⟨digitsOf_ne_nil _, ?_, by simp, by simp, .inl rfl⟩
    exact fun c member => isAsciiDigit_of_mem_digitsOf member
  have chars : (DecimalText.mk (digitsOf value.natAbs) [] [] []).chars =
      digitsOf value.natAbs := by
    simp [DecimalText.chars, DecimalText.fractionChars, DecimalText.exponentChars]
  rw [intText, intChars]
  split
  · have lexes := lexes_negative proper
    rwa [chars] at lexes
  · have lexes := lexes_magnitude proper
    rwa [chars] at lexes

theorem lexes_float {value : Float} (finite : isFinite value = true) (layout : Layout) :
    Lexes (layout.chars value) [⟨.number, layout.text value⟩] := by
  have proper := layout.proper_magnitudeText (magnitudeBits value)
  rw [Layout.text, layout.chars_eq finite]
  split
  · exact lexes_negative proper
  · exact lexes_magnitude proper

/-! Dates. -/

def IsDateText (chars : List Char) : Prop :=
  ∃ year month day, chars = year ++ '-' :: (month ++ '-' :: day) ∧
    (year.length = 4 ∧ month.length = 2 ∧ day.length = 2) ∧
      ∀ c ∈ year ++ (month ++ day), isDecimalDigit c = true

theorem not_isBlank_of_isDecimalDigit {c : Char} (digit : isDecimalDigit c = true) :
    isBlank c = false := by
  cases blank : isBlank c with
  | false => rfl
  | true =>
      rw [not_isDecimalDigit_of_isBlank blank] at digit
      cases digit

theorem IsDateText.not_isBlank {chars : List Char} (date : IsDateText chars) :
    ∀ c ∈ chars, isBlank c = false := by
  obtain ⟨year, month, day, rfl, _, digits⟩ := date
  obtain ⟨yearDigits, others⟩ := List.forall_mem_append.mp digits
  obtain ⟨monthDigits, dayDigits⟩ := List.forall_mem_append.mp others
  have hyphen : isBlank '-' = false := by decide
  refine List.forall_mem_append.mpr ⟨fun c member => ?_, List.forall_mem_cons.mpr ⟨hyphen, ?_⟩⟩
  · exact not_isBlank_of_isDecimalDigit (yearDigits c member)
  refine List.forall_mem_append.mpr ⟨fun c member => ?_, List.forall_mem_cons.mpr ⟨hyphen, ?_⟩⟩
  · exact not_isBlank_of_isDecimalDigit (monthDigits c member)
  · exact fun c member => not_isBlank_of_isDecimalDigit (dayDigits c member)

theorem afterDigitCount?_eq_some_iff {count : Nat} {chars rest : List Char} :
    afterDigitCount? count chars = some rest ↔
      ∃ digits, chars = digits ++ rest ∧ digits.length = count ∧
        ∀ c ∈ digits, isDecimalDigit c = true := by
  induction count generalizing chars with
  | zero =>
      constructor
      · intro found
        exact ⟨[], Option.some.inj found, rfl, by simp⟩
      · rintro ⟨digits, rfl, none, _⟩
        rw [List.eq_nil_of_length_eq_zero none]
        rfl
  | succ count ih =>
      cases chars with
      | nil =>
          refine iff_of_false (by simp [afterDigitCount?]) ?_
          rintro ⟨digits, same, length, _⟩
          have nothing := List.append_eq_nil_iff.mp same.symm
          rw [nothing.1] at length
          cases length
      | cons c chars =>
          rw [afterDigitCount?]
          constructor
          · intro found
            split at found
            · rename_i digit
              obtain ⟨digits, rfl, rfl, all⟩ := ih.mp found
              exact ⟨c :: digits, rfl, rfl, List.forall_mem_cons.mpr ⟨digit, all⟩⟩
            · cases found
          · rintro ⟨digits, same, length, all⟩
            cases digits with
            | nil => cases length
            | cons first digits =>
                obtain ⟨rfl, rfl⟩ := List.cons.inj same
                obtain ⟨digit, others⟩ := List.forall_mem_cons.mp all
                rw [if_pos digit]
                exact ih.mpr ⟨digits, rfl, Nat.succ.inj length, others⟩

theorem dropBlanks_of_not_isBlank {c : Char} {rest : List Char} (notBlank : isBlank c = false) :
    dropBlanks (c :: rest) = c :: rest := by
  simp [dropBlanks, notBlank]

theorem afterDate?_of_isDateText {chars : List Char} (date : IsDateText chars)
    (rest : List Char) :
    afterDate? (['D', 'A', 'T', 'E', '('] ++ (chars ++ ')' :: rest)) = some rest := by
  obtain ⟨year, month, day, rfl, ⟨yearLength, monthLength, dayLength⟩, digits⟩ := date
  obtain ⟨yearDigits, others⟩ := List.forall_mem_append.mp digits
  obtain ⟨monthDigits, dayDigits⟩ := List.forall_mem_append.mp others
  have front : dropBlanks (year ++ '-' :: (month ++ '-' :: day) ++ ')' :: rest) =
      year ++ '-' :: (month ++ '-' :: (day ++ ')' :: rest)) := by
    cases year with
    | nil => cases yearLength
    | cons c year =>
        have digit := yearDigits c (List.mem_cons_self ..)
        simp [dropBlanks_of_not_isBlank (not_isBlank_of_isDecimalDigit digit)]
  have start : after? ['D', 'A', 'T', 'E', '(']
      (['D', 'A', 'T', 'E', '('] ++ (year ++ '-' :: (month ++ '-' :: day) ++ ')' :: rest)) =
        some (year ++ '-' :: (month ++ '-' :: day) ++ ')' :: rest) := after?_eq_some_iff.mpr rfl
  have years : afterDigitCount? 4 (year ++ '-' :: (month ++ '-' :: (day ++ ')' :: rest))) =
      some ('-' :: (month ++ '-' :: (day ++ ')' :: rest))) :=
    afterDigitCount?_eq_some_iff.mpr ⟨year, rfl, yearLength, yearDigits⟩
  have months : afterDigitCount? 2 (month ++ '-' :: (day ++ ')' :: rest)) =
      some ('-' :: (day ++ ')' :: rest)) :=
    afterDigitCount?_eq_some_iff.mpr ⟨month, rfl, monthLength, monthDigits⟩
  have days : afterDigitCount? 2 (day ++ ')' :: rest) = some (')' :: rest) :=
    afterDigitCount?_eq_some_iff.mpr ⟨day, rfl, dayLength, dayDigits⟩
  have closing : dropBlanks (')' :: rest) = ')' :: rest :=
    dropBlanks_of_not_isBlank (by decide)
  rw [afterDate?, start]
  simp only [Option.bind_eq_bind, Option.bind_some, front, years, months, days, closing, after?,
    if_true]

theorem withoutBlanks_eq_self {chars : List Char} (solid : ∀ c ∈ chars, isBlank c = false) :
    withoutBlanks chars = chars :=
  List.filter_eq_self.mpr fun c member => by simp [solid c member]

def dateChars (chars : List Char) : List Char :=
  ['D', 'A', 'T', 'E', '('] ++ (chars ++ [')'])

theorem not_isBlank_dateChars {chars : List Char} (date : IsDateText chars) :
    ∀ c ∈ dateChars chars, isBlank c = false :=
  List.forall_mem_append.mpr
    ⟨by simp [isBlank], List.forall_mem_append.mpr ⟨date.not_isBlank, by simp [isBlank]⟩⟩

theorem first_eq_date_iff {c : Char} {rest after : List Char} :
    first c rest = (.date, after) ↔ afterDate? (c :: rest) = some after := by
  constructor
  · intro same
    rw [first] at same
    split at same
    · rename_i found
      rw [found, (Prod.mk.inj same).2]
    · repeat' split at same
      all_goals cases same
  · intro found
    rw [first, found]

theorem lexes_date {chars : List Char} (date : IsDateText chars) :
    Lexes (dateChars chars) [⟨.date, String.ofList (dateChars chars)⟩] := by
  have token : Token.ofLexeme .date (dateChars chars) =
      ⟨.date, String.ofList (dateChars chars)⟩ := by
    rw [Token.ofLexeme, withoutBlanks_eq_self (not_isBlank_dateChars date)]
  rw [← token]
  refine lexes_of_first .date (by decide) fun rest _ => ?_
  have found := afterDate?_of_isDateText date rest
  have regroup : 'D' :: (['A', 'T', 'E', '('] ++ (chars ++ [')']) ++ rest) =
      ['D', 'A', 'T', 'E', '('] ++ (chars ++ ')' :: rest) := by simp
  rw [← regroup] at found
  exact first_eq_date_iff.mpr found

theorem exists_blanks_append (chars : List Char) :
    ∃ blanks, chars = blanks ++ dropBlanks chars ∧ withoutBlanks blanks = [] := by
  refine ⟨chars.takeWhile isBlank, List.takeWhile_append_dropWhile.symm, ?_⟩
  rw [withoutBlanks, List.filter_eq_nil_iff]
  intro c member
  simp [List.mem_takeWhile_imp member]

theorem isDateText_of_afterDate? {chars after : List Char}
    (found : afterDate? chars = some after) :
    ∃ text raw, chars = text ++ after ∧ IsDateText raw ∧ withoutBlanks text = dateChars raw := by
  simp only [afterDate?, Option.bind_eq_bind, Option.bind_eq_some_iff, after?_eq_some_iff,
    afterDigitCount?_eq_some_iff] at found
  obtain ⟨inside, rfl, afterYear, ⟨year, atYear, yearLength, yearDigits⟩, _, rfl,
    afterMonth, ⟨month, rfl, monthLength, monthDigits⟩, _, rfl,
    afterDay, ⟨day, rfl, dayLength, dayDigits⟩, closing⟩ := found
  obtain ⟨before, splitBefore, noneBefore⟩ := exists_blanks_append inside
  obtain ⟨behind, splitBehind, noneBehind⟩ := exists_blanks_append afterDay
  have date : IsDateText (year ++ '-' :: (month ++ '-' :: day)) :=
    ⟨year, month, day, rfl, ⟨yearLength, monthLength, dayLength⟩,
      List.forall_mem_append.mpr ⟨yearDigits, List.forall_mem_append.mpr ⟨monthDigits, dayDigits⟩⟩⟩
  refine ⟨['D', 'A', 'T', 'E', '('] ++
      (before ++ ((year ++ '-' :: (month ++ '-' :: day)) ++ (behind ++ [')']))), _, ?_, date, ?_⟩
  · rw [splitBefore, atYear, splitBehind, closing]
    simp
  · have solid := withoutBlanks_eq_self date.not_isBlank
    have start : withoutBlanks ['D', 'A', 'T', 'E', '('] = ['D', 'A', 'T', 'E', '('] :=
      withoutBlanks_eq_self (by simp [isBlank])
    have close : withoutBlanks [')'] = [')'] := withoutBlanks_eq_self (by simp [isBlank])
    simp only [withoutBlanks] at start noneBefore solid noneBehind close
    simp only [withoutBlanks, List.filter_append] at *
    simp [start, noneBefore, solid, noneBehind, close, dateChars]

theorem Token.kind_ofWord_ne_date (word : List Char) : (Token.ofWord word).kind ≠ .date := by
  simp only [Token.ofWord]
  split
  · simp
  · split
    · simp
    · split <;> simp

theorem Token.eq_date_of_kind_ofLexeme {shape : Shape} {chars : List Char}
    (date : (Token.ofLexeme shape chars).kind = .date) : shape = .date := by
  cases shape with
  | date => rfl
  | word => exact absurd date (Token.kind_ofWord_ne_date chars)
  | openParen | closeParen | operator | number | other => simp [Token.ofLexeme] at date

theorem isDateText_of_mem_tokensOf {chars : List Char} {token : Token}
    (member : token ∈ tokensOf chars) (date : token.kind = .date) :
    ∃ raw, IsDateText raw ∧ token.text = String.ofList (dateChars raw) := by
  obtain ⟨c, rest, _, rfl⟩ := exists_lexeme_of_mem_tokensOf member
  have shape := Token.eq_date_of_kind_ofLexeme date
  have found := first_eq_date_iff.mp (Prod.ext shape rfl : first c rest = (.date, (first c rest).2))
  obtain ⟨text, raw, split, isDate, chars⟩ := isDateText_of_afterDate? found
  have size : rest.length + 1 - (first c rest).2.length = text.length := by
    rw [← List.length_cons, split, List.length_append, Nat.add_sub_cancel]
  refine ⟨raw, isDate, ?_⟩
  rw [shape, size, split, List.take_left, Token.ofLexeme, chars]

/-! Operators. -/

theorem lexes_symbol {c : Char} {word : List Char}
    (notWord : c ≠ 'D' ∧ c ≠ 'I' ∧ c ≠ '(' ∧ c ≠ ')') (notBlank : isBlank c = false)
    (found : (symbols.findSome? fun symbol => after? symbol (c :: word)) = some []) :
    Lexes (c :: word) [⟨.operator, String.ofList (squeezeBlanks (c :: word))⟩] := by
  obtain ⟨notDate, notTest, notOpen, notClose⟩ := notWord
  refine lexes_of_first .operator notBlank fun rest breaks => ?_
  have symbol : (symbols.findSome? fun symbol => after? symbol (c :: (word ++ rest))) =
      some rest := by
    have same := local_findSymbol (c :: word) rest breaks
    simp only [found, Option.map_some, List.nil_append] at same
    exact same
  simp [first, afterDate?, afterOperator?, afterIsNot?, afterWholeWord?, after?, notDate, notTest,
    notOpen, notClose, symbol]

theorem lexes_comparison (comparison : Comparison) :
    Lexes comparison.symbol.toList [⟨.operator, comparison.symbol⟩] := by
  cases comparison <;> exact lexes_symbol (by decide) (by decide) (by decide)

theorem lexes_and : Lexes ['&'] [⟨.operator, "&"⟩] :=
  lexes_symbol (by decide) (by decide) (by decide)

theorem lexes_or : Lexes ['|'] [⟨.operator, "|"⟩] :=
  lexes_symbol (by decide) (by decide) (by decide)

theorem first_of_test {rest after : List Char}
    (found : afterOperator? ('I' :: rest) = some after) : first 'I' rest = (.operator, after) := by
  have noDate : afterDate? ('I' :: rest) = none := by simp [afterDate?, after?]
  rw [first, noDate, found]
  rfl

theorem lexes_isNot : Lexes ['I', 'S', ' ', 'N', 'O', 'T'] [⟨.operator, "IS NOT"⟩] := by
  refine lexes_of_first .operator (by decide) fun rest breaks => first_of_test ?_
  have ends : endsWord rest = true := @endsWord_append [] rest breaks
  have blank : isBlank ' ' = true := by decide
  have solid : isBlank 'N' = false := by decide
  simp [afterOperator?, afterIsNot?, afterWholeWord?, after?, blank,
    dropBlanks_of_not_isBlank solid, Option.filter_some, ends]

/-- After `IS` it matters what follows, for the word `NOT` would go on with the operator. -/
theorem lexes_isMissing : Lexes ('I' :: 'S' :: ' ' :: missingWord.toList)
    [⟨.operator, "IS"⟩, ⟨.missing, missingWord⟩] := by
  intro rest breaks
  have blank : isBlank ' ' = true := by decide
  have solid : isBlank 'p' = false := by decide
  have notWord : isWord ' ' = false := not_isWord_of_isBlank blank
  have reads : first 'I' ('S' :: ' ' :: (missingWord.toList ++ rest)) =
      (.operator, ' ' :: (missingWord.toList ++ rest)) := by
    refine first_of_test ?_
    have split : missingWord.toList ++ rest = 'p' :: ('d' :: '.' :: 'N' :: 'A' :: rest) := rfl
    simp [split, afterOperator?, afterIsNot?, afterWholeWord?, after?, blank,
      dropBlanks_of_not_isBlank solid, Option.filter_some, endsWord, notWord]
  have size : ('S' :: ' ' :: (missingWord.toList ++ rest)).length + 1 -
      (' ' :: (missingWord.toList ++ rest)).length = 2 := by
    simp only [List.length_cons]
    omega
  simp only [List.cons_append]
  rw [tokensOf_cons (by decide), reads, size, tokensOf_of_isBlank blank,
    lexes_missing rest breaks]
  rfl

theorem lexes_nullTest (negated : Bool) :
    Lexes ((nullTestWords negated).toList ++ ' ' :: missingWord.toList)
      [⟨.operator, nullTestWords negated⟩, ⟨.missing, missingWord⟩] := by
  cases negated with
  | true => exact lexes_isNot.spaced lexes_missing
  | false => exact lexes_isMissing

end TableSieve
