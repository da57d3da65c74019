import TableSieve.Proofs.Lexemes

/-!
Spacing the tokens of a text anew. A lexeme is the same lexeme by itself, and so before a space;
only `IS` looks further, for the word `NOT` behind blanks would go on with it. But then the two
would have been one operator in the first place. So the tokens of a text, written with single spaces
between them, are read as the same tokens.
-/

namespace TableSieve

open TableSieve.Formula (after?_eq_some_iff)
open TableSieve.Lexeme TableSieve.Text

/-! Words. -/

namespace Lexeme

theorem Stops.not_isDecimalDigit {rest : List Char} (stops : Stops rest) :
    ∀ c more, rest = c :: more → isDecimalDigit c = false := by
  rintro c more rfl
  cases digit : isDecimalDigit c with
  | false => rfl
  | true =>
      have part := isWordPart_of_isDecimalDigit digit
      rw [show isWordPart c = false from stops] at part
      cases part

theorem endsWord_append_of_stops {chars rest : List Char} (ends : endsWord chars = true)
    (stops : Stops rest) : endsWord (chars ++ rest) = true := by
  cases chars with
  | cons c chars => exact ends
  | nil =>
      cases rest with
      | nil => rfl
      | cons c rest =>
          have notPart : isWordPart c = false := stops
          simp only [isWordPart, Bool.or_eq_false_iff] at notPart
          simp [endsWord, notPart.1.1]

def Stable (step? : List Char → Option (List Char)) : Prop :=
  ∀ chars rest after, Stops rest → step? chars = some after →
    step? (chars ++ rest) = some (after ++ rest)

theorem stable_after? (expected : List Char) : Stable (after? expected) := by
  intro chars rest after _ found
  rw [after?_eq_some_iff] at found ⊢
  rw [found, List.append_assoc]

theorem stable_afterDigits? : Stable afterDigits? := by
  intro chars rest after stops found
  rw [afterDigits?_append_of_stops stops.not_isDecimalDigit, found, Option.map_some]

theorem Stable.bind {first next : List Char → Option (List Char)} (firstStable : Stable first)
    (nextStable : Stable next) : Stable fun chars => (first chars).bind next := by
  intro chars rest after stops found
  obtain ⟨middle, start, finish⟩ := Option.bind_eq_some_iff.mp found
  simp only [firstStable chars rest middle stops start, Option.bind_some]
  exact nextStable middle rest after stops finish

theorem Stable.endsWord {step? : List Char → Option (List Char)} (stable : Stable step?) :
    Stable fun chars => (step? chars).filter endsWord := by
  intro chars rest after stops found
  obtain ⟨matched, ends⟩ := Option.filter_eq_some_iff.mp found
  exact Option.filter_eq_some_iff.mpr
    ⟨stable chars rest after stops matched, endsWord_append_of_stops ends stops⟩

theorem stable_afterExponent? : Stable afterExponent? := by
  intro chars rest after stops found
  match chars with
  | [] | [_] => cases found
  | mark :: sign :: chars =>
      simp only [List.cons_append, afterExponent?] at found ⊢
      split at found
      · rename_i marks
        rw [if_pos marks]
        by_cases signs : sign = '+' ∨ sign = '-'
        · rw [if_pos signs] at found ⊢
          exact stable_afterDigits? chars rest after stops found
        · rw [if_neg signs] at found ⊢
          exact stable_afterDigits? (sign :: chars) rest after stops found
      · cases found

theorem skip_afterFraction?_append {chars rest : List Char} (stops : Stops rest) :
    skip afterFraction? (chars ++ rest) = skip afterFraction? chars ++ rest := by
  unfold skip afterFraction?
  match chars, rest with
  | [], [] => rfl
  | [], c :: rest =>
      have notPoint : c ≠ '.' := by
        rintro rfl
        cases stops
      simp [after?, notPoint]
  | c :: chars, rest =>
      by_cases point : c = '.'
      · simp only [List.cons_append, after?, point, if_true, Option.bind_some,
          afterDigits?_append_of_stops stops.not_isDecimalDigit]
        cases afterDigits? chars <;> rfl
      · simp [after?, point]

theorem stable_afterScientific? : Stable afterScientific? := by
  have tail : Stable fun chars => some (skip afterFraction? chars) := by
    intro chars rest after stops found
    have same : skip afterFraction? chars = after := Option.some.inj found
    simp only [skip_afterFraction?_append stops, same]
  exact stable_afterDigits?.bind (tail.bind stable_afterExponent?).endsWord

theorem stable_afterWholeWord? (word : List Char) : Stable (afterWholeWord? word) :=
  (stable_after? word).endsWord

theorem Stable.eq_none {step? : List Char → Option (List Char)} (stable : Stable step?)
    {chars rest : List Char} (stops : Stops rest) (none : step? (chars ++ rest) = none) :
    step? chars = .none := by
  cases found : step? chars with
  | none => rfl
  | some after =>
      rw [stable chars rest after stops found] at none
      cases none

theorem stops_of_afterWord? {chars after : List Char} (found : afterWord? chars = some after) :
    Stops after := by
  cases chars with
  | nil => cases found
  | cons c rest =>
      rw [afterWord?] at found
      split at found
      · have notPart := List.head?_dropWhile_not isWordPart rest
        rw [Option.some.inj found] at notPart
        cases after with
        | nil => trivial
        | cons d after => exact notPart
      · cases found

theorem first_word_alone {c : Char} {chars rest : List Char}
    (reads : first c (chars ++ rest) = (.word, rest))
    (parts : ∀ d ∈ c :: chars, isWordPart d = true) : first c chars = (.word, []) := by
  obtain ⟨_, notOpen, notClose, noOperator, noNumber, word⟩ := first_eq_word_iff.mp reads
  have stops := stops_of_afterWord? word
  obtain ⟨_, others⟩ := Option.or_eq_none_iff.mp noOperator
  have noTest : afterWholeWord? ['I', 'S'] (c :: chars) = none :=
    (stable_afterWholeWord? _).eq_none stops (Option.or_eq_none_iff.mp others).1
  have noScientific : afterScientific? (c :: chars) = none :=
    stable_afterScientific?.eq_none stops (Option.or_eq_none_iff.mp noNumber).2
  have notMinus : c ≠ '-' := by
    rintro rfl
    exact absurd (parts '-' (List.mem_cons_self ..)) (by decide)
  have noOpening : '(' ∉ c :: chars := fun opening => absurd (parts '(' opening) (by decide)
  have noIsNot : afterIsNot? (c :: chars) = none := by
    rw [Option.eq_none_iff_forall_ne_some]
    intro after isNot
    obtain ⟨blanks, some, blank, split⟩ := exists_of_afterIsNot? isNot
    obtain ⟨space, blanks, rfl⟩ := List.exists_cons_of_ne_nil some
    have part := parts space (by simp [split])
    have isBlank := blank space (List.mem_cons_self ..)
    rw [not_isBlank_of_isWordPart part] at isBlank
    cases isBlank
  refine first_eq_word_iff.mpr ⟨?_, notOpen, notClose, ?_, ?_, afterWord?_of_isWordPart parts⟩
  · have noDate : afterDate? (c :: chars ++ []) = none := afterDate?_eq_none noOpening trivial
    rwa [List.append_nil] at noDate
  · rw [afterOperator?, noIsNot, noTest, findSymbol_eq_none (parts c (List.mem_cons_self ..))]
    rfl
  · rw [noScientific, Option.or_none]
    simp [afterNegative?, after?, notMinus]

theorem first_eq_other_iff {c : Char} {rest after : List Char} :
    first c rest = (.other, after) ↔
      afterDate? (c :: rest) = none ∧ c ≠ '(' ∧ c ≠ ')' ∧ afterOperator? (c :: rest) = none ∧
        (afterNegative? (c :: rest)).or (afterScientific? (c :: rest)) = none ∧
          isWordPart c = false ∧ rest = after := by
  rw [first]
  cases afterDate? (c :: rest) with
  | some _ => simp
  | none =>
    by_cases opens : c = '('
    · simp [opens]
    by_cases closes : c = ')'
    · simp [closes]
    cases afterOperator? (c :: rest) with
    | some _ => simp [opens, closes]
    | none =>
      cases (afterNegative? (c :: rest)).or (afterScientific? (c :: rest)) with
      | some _ => simp [opens, closes]
      | none => cases part : isWordPart c <;> simp [opens, closes, afterWord?, part]

theorem operator_of_first {c : Char} {rest after : List Char}
    (reads : first c rest = (.operator, after)) : afterOperator? (c :: rest) = some after := by
  rw [first] at reads
  repeat' split at reads
  all_goals simp_all

end Lexeme

/-! Lexemes before a break. -/

theorem lexes_openParen : Lexes ['('] [⟨.openParen, "("⟩] :=
  lexes_of_first .openParen (by decide) fun _ _ => by simp [first, afterDate?, after?]

theorem lexes_closeParen : Lexes [')'] [⟨.closeParen, ")"⟩] :=
  lexes_of_first .closeParen (by decide) fun _ _ => by simp [first, afterDate?, after?]

theorem lexes_of_mem_symbols {symbol : List Char} (listed : symbol ∈ symbols) :
    Lexes symbol [Token.ofLexeme .operator symbol] := by
  simp only [symbols, List.mem_cons, List.not_mem_nil, or_false] at listed
  rcases listed with rfl | rfl | rfl | rfl | rfl | rfl | rfl | rfl <;>
    exact lexes_symbol (by decide) (by decide) (by decide)

theorem lexes_other {c : Char} {rest after : List Char} (notBlank : isBlank c = false)
    (reads : first c rest = (.other, after)) : Lexes [c] [⟨.operator, String.ofList [c]⟩] := by
  obtain ⟨_, notOpen, notClose, noOperator, _, notPart, _⟩ := first_eq_other_iff.mp reads
  have different : ∀ d, isWordPart d = true → c ≠ d := by
    rintro d part rfl
    rw [notPart] at part
    cases part
  have notDigit : isDecimalDigit c = false := by
    cases digit : isDecimalDigit c with
    | false => rfl
    | true => exact absurd rfl (different c (isWordPart_of_isDecimalDigit digit))
  have alone : (symbols.findSome? fun symbol => after? symbol [c]) = none := by
    obtain ⟨_, others⟩ := Option.or_eq_none_iff.mp noOperator
    have none := (Option.or_eq_none_iff.mp others).2
    rw [List.findSome?_eq_none_iff] at none ⊢
    intro symbol listed
    rw [Option.eq_none_iff_forall_ne_some]
    intro remaining found
    have longer := after?_eq_some_iff.mp found
    have matched : after? symbol (c :: rest) = some (remaining ++ rest) :=
      after?_eq_some_iff.mpr (by rw [← List.append_assoc, ← longer]; rfl)
    rw [none symbol listed] at matched
    cases matched
  refine lexes_of_first .other notBlank fun next breaks => ?_
  have noSymbol : (symbols.findSome? fun symbol => after? symbol (c :: next)) = none := by
    have same := local_findSymbol [c] next breaks
    simp only [alone, Option.map_none] at same
    exact same
  have noNegative : afterNegative? (c :: next) = none := by
    have same := local_afterNegative? [c] next breaks
    have none : afterNegative? [c] = none := by
      by_cases minus : c = '-' <;> simp [afterNegative?, after?, afterDigits?, minus]
    rwa [none, Option.map_none] at same
  refine first_eq_other_iff.mpr ⟨?_, notOpen, notClose, ?_, ?_, notPart, rfl⟩
  · simp [afterDate?, after?, different 'D' (by decide)]
  · simp [afterOperator?, afterIsNot?, afterWholeWord?, after?, different 'I' (by decide),
      noSymbol]
  · simp [noNegative, afterScientific?, afterDigits?, notDigit]

theorem squeezeBlanks_append {blanks : List Char} (some : blanks ≠ [])
    (blank : ∀ c ∈ blanks, isBlank c = true) {c : Char} (notBlank : isBlank c = false)
    (rest : List Char) :
    squeezeBlanks (blanks ++ c :: rest) = ' ' :: squeezeBlanks (c :: rest) := by
  induction blanks with
  | nil => exact absurd rfl some
  | cons space blanks ih =>
      obtain ⟨first, others⟩ := List.forall_mem_cons.mp blank
      cases blanks with
      | nil => simp [squeezeBlanks, first, notBlank]
      | cons next blanks =>
          have later := ih (List.cons_ne_nil _ _) others
          simp only [List.cons_append] at later ⊢
          rw [squeezeBlanks, if_pos first]
          simp only [others next (List.mem_cons_self ..), if_true]
          exact later

theorem Token.ofLexeme_isNot {blanks : List Char} (some : blanks ≠ [])
    (blank : ∀ c ∈ blanks, isBlank c = true) :
    Token.ofLexeme .operator (['I', 'S'] ++ (blanks ++ ['N', 'O', 'T'])) =
      ⟨.operator, "IS NOT"⟩ := by
  have solid : isBlank 'I' = false ∧ isBlank 'S' = false ∧ isBlank 'N' = false ∧
      isBlank 'O' = false ∧ isBlank 'T' = false := by decide
  have squeezed := squeezeBlanks_append some blank solid.2.2.1 ['O', 'T']
  have test : squeezeBlanks (['I', 'S'] ++ (blanks ++ ['N', 'O', 'T'])) =
      ['I', 'S', ' ', 'N', 'O', 'T'] := by
    simp [squeezeBlanks, solid, squeezed]
  rw [Token.ofLexeme, test]

theorem lexes_ofLexeme {shape : Shape} {c : Char} {chars rest : List Char}
    (notBlank : isBlank c = false) (reads : first c (chars ++ rest) = (shape, rest))
    (fits : shape.Fits (c :: chars)) (notTest : ¬(shape = .operator ∧ c :: chars = ['I', 'S'])) :
    Lexes (Token.ofLexeme shape (c :: chars)).text.toList [Token.ofLexeme shape (c :: chars)] := by
  cases shape with
  | date =>
      obtain ⟨raw, isDate, same⟩ := fits
      rw [Token.ofLexeme, same, String.toList_ofList]
      exact lexes_date isDate
  | openParen =>
      rw [show c :: chars = ['('] from fits]
      exact lexes_openParen
  | closeParen =>
      rw [show c :: chars = [')'] from fits]
      exact lexes_closeParen
  | operator =>
      rcases fits with test | listed | ⟨blanks, some, blank, split⟩
      · exact absurd ⟨rfl, test⟩ notTest
      · have solid : ∀ symbol ∈ symbols, squeezeBlanks symbol = symbol := by decide
        have lexes := lexes_of_mem_symbols listed
        rw [Token.ofLexeme, solid _ listed] at lexes ⊢
        rwa [String.toList_ofList]
      · rw [split, Token.ofLexeme_isNot some blank]
        exact lexes_isNot
  | number =>
      have alone : first c chars = (.number, []) :=
        (startsNumber_of_number fits.2).1.first_number fits.2
      rw [Token.ofLexeme, String.toList_ofList]
      exact lexes_number alone
  | word =>
      rw [Token.ofLexeme, Token.text_ofWord, String.toList_ofList]
      exact lexes_word (first_word_alone reads fits.2)
  | other =>
      obtain ⟨d, same⟩ := fits
      obtain ⟨rfl, rfl⟩ := List.cons.inj same
      rw [Token.ofLexeme, String.toList_ofList]
      exact lexes_other notBlank reads

/-! What follows `IS`. -/

def negates (chars : List Char) : Bool :=
  (afterWholeWord? ['N', 'O', 'T'] (dropBlanks chars)).isSome

theorem afterIsNot?_test {rest : List Char} (ends : endsWord rest = true) :
    (afterIsNot? ('I' :: 'S' :: rest)).isSome = negates rest := by
  cases rest with
  | nil => rfl
  | cons c rest =>
      have start : after? ['I', 'S'] ('I' :: 'S' :: c :: rest) = some (c :: rest) :=
        after?_eq_some_iff.mpr rfl
      rw [afterIsNot?, start, negates]
      cases blank : isBlank c with
      | true => simp [dropBlanks, blank]
      | false =>
          have notLetter : c ≠ 'N' := by
            rintro rfl
            cases ends
          simp [blank, dropBlanks_of_not_isBlank blank, afterWholeWord?, after?, notLetter]

/-- `IS` is an operator by itself only where `NOT` does not follow. -/
theorem not_negates_of_first {rest : List Char}
    (reads : first 'I' ('S' :: rest) = (.operator, rest)) : negates rest = false := by
  rcases Option.or_eq_some_iff.mp (operator_of_first reads) with isNot | ⟨noIsNot, others⟩
  · obtain ⟨blanks, _, _, split⟩ := exists_of_afterIsNot? isNot
    have length := congrArg List.length split
    simp only [List.length_cons, List.length_append, List.length_nil] at length
    omega
  rcases Option.or_eq_some_iff.mp others with test | ⟨_, symbol⟩
  · have ends : endsWord rest = true := (Option.filter_eq_some_iff.mp test).2
    rw [← afterIsNot?_test ends, noIsNot, Option.isSome_none]
  · rw [findSymbol_eq_none (by decide)] at symbol
    cases symbol

theorem tokensOf_test {rest : List Char} (breaks : Breaks rest)
    (notNegated : negates rest = false) :
    tokensOf ('I' :: 'S' :: rest) = ⟨.operator, "IS"⟩ :: tokensOf rest := by
  have ends : endsWord rest = true := @endsWord_append [] rest breaks
  have noIsNot : afterIsNot? ('I' :: 'S' :: rest) = none := by
    rw [← Option.not_isSome_iff_eq_none, afterIsNot?_test ends, notNegated]
    simp
  have start : after? ['I', 'S'] ('I' :: 'S' :: rest) = some rest := after?_eq_some_iff.mpr rfl
  have reads : first 'I' (['S'] ++ rest) = (.operator, rest) := by
    refine first_of_test ?_
    simp [afterOperator?, noIsNot, afterWholeWord?, start, Option.filter_some, ends]
  exact tokensOf_of_first (by decide) reads

/-! Texts spaced anew. -/

def spacedChars : List Token → List Char
  | [] => []
  | token :: rest => ' ' :: (token.text.toList ++ spacedChars rest)

theorem breaks_spacedChars (tokens : List Token) : Breaks (spacedChars tokens) := by
  cases tokens with
  | nil => trivial
  | cons token rest => exact .inl (by decide)

theorem Token.exists_text_ofLexeme (shape : Shape) {c : Char} (notBlank : isBlank c = false)
    (chars : List Char) :
    ∃ more, (Token.ofLexeme shape (c :: chars)).text.toList = c :: more := by
  cases shape with
  | date => exact ⟨withoutBlanks chars, by simp [Token.ofLexeme, withoutBlanks, notBlank]⟩
  | operator => exact ⟨squeezeBlanks chars, by simp [Token.ofLexeme, squeezeBlanks, notBlank]⟩
  | word => exact ⟨chars, by simp [Token.ofLexeme, Token.text_ofWord]⟩
  | openParen | closeParen | number | other => exact ⟨chars, by simp [Token.ofLexeme]⟩

theorem Lexeme.Shape.Fits.eq_word {shape : Shape} {chars rest : List Char}
    (fits : shape.Fits ('N' :: chars)) (reads : first 'N' (chars ++ rest) = (shape, rest)) :
    shape = .word := by
  cases shape with
  | word => rfl
  | date =>
      obtain ⟨raw, _, same⟩ := fits
      have solid : isBlank 'N' = false := by decide
      simp [withoutBlanks, solid, dateChars] at same
  | openParen | closeParen => cases fits
  | operator =>
      rcases fits with same | listed | ⟨_, _, _, same⟩
      · cases same
      · have heads : ∀ symbol ∈ symbols, symbol.head? ≠ some 'N' := by decide
        exact absurd rfl (heads _ listed)
      · cases same
  | number =>
      rcases Option.or_eq_some_iff.mp fits.2 with negative | ⟨_, scientific⟩
      · exact absurd (eq_minus_of_afterNegative? negative) (by decide)
      · obtain ⟨c, more, same, digit⟩ := exists_digit_of_afterScientific? scientific
        obtain ⟨rfl, _⟩ := List.cons.inj same
        exact absurd digit (by decide)
  | other =>
      obtain ⟨_, _, _, _, _, notPart, _⟩ := first_eq_other_iff.mp reads
      exact absurd notPart (by decide)

theorem negates_of_spacedChars {chars : List Char}
    (negated : negates (spacedChars (tokensOf chars)) = true) : negates chars = true := by
  induction chars using tokensOf_induction with
  | nil => exact negated
  | blank c rest blank ih =>
      have same : dropBlanks (c :: rest) = dropBlanks rest := by simp [dropBlanks, blank]
      rw [negates, same]
      exact ih negated
  | lexeme shape c chars rest notBlank reads fits _ =>
      have space : isBlank ' ' = true := by decide
      have before : Breaks (spacedChars (tokensOf rest)) := breaks_spacedChars _
      obtain ⟨more, text⟩ := Token.exists_text_ofLexeme shape notBlank chars
      have front : dropBlanks (spacedChars (Token.ofLexeme shape (c :: chars) :: tokensOf rest)) =
          (Token.ofLexeme shape (c :: chars)).text.toList ++ spacedChars (tokensOf rest) := by
        simp [spacedChars, dropBlanks, space, text, notBlank]
      rw [negates, front, Option.isSome_iff_exists] at negated
      obtain ⟨after, found⟩ := negated
      obtain rfl : c = 'N' := by
        have split := after?_eq_some_iff.mp (Option.filter_eq_some_iff.mp found).1
        rw [text] at split
        exact (List.cons.inj split).1
      obtain rfl := fits.eq_word reads
      -- By itself the word is `NOT` up to a character that is no part of words, before both rests.
      have isLocal : Local (afterWholeWord? ['N', 'O', 'T']) :=
        local_afterWholeWord? (by simp [Solid, isBlank])
      have word : (Token.ofLexeme .word ('N' :: chars)).text.toList = 'N' :: chars := by
        simp [Token.ofLexeme, Token.text_ofWord]
      rw [word, isLocal _ _ before, Option.map_eq_some_iff] at found
      obtain ⟨remaining, alone, _⟩ := found
      have stops : Stops rest := stops_of_afterWord? (first_eq_word_iff.mp reads).2.2.2.2.2
      have again := stable_afterWholeWord? _ ('N' :: chars) rest remaining stops alone
      rw [negates, List.cons_append, dropBlanks_of_not_isBlank notBlank, ← List.cons_append, again,
        Option.isSome_some]

theorem tokensOf_spacedChars (chars : List Char) :
    tokensOf (spacedChars (tokensOf chars)) = tokensOf chars := by
  have space : isBlank ' ' = true := by decide
  induction chars using tokensOf_induction with
  | nil => exact tokensOf_nil
  | blank c rest blank ih => exact ih
  | lexeme shape c chars rest notBlank reads fits ih =>
      have before : Breaks (spacedChars (tokensOf rest)) := breaks_spacedChars _
      rw [spacedChars, tokensOf_of_isBlank space]
      by_cases test : shape = .operator ∧ c :: chars = ['I', 'S']
      · obtain ⟨rfl, text⟩ := test
        obtain ⟨rfl, rfl⟩ := List.cons.inj text
        have notBefore : negates rest = false := not_negates_of_first reads
        have notNegated : negates (spacedChars (tokensOf rest)) = false := by
          rw [Bool.eq_false_iff]
          intro negated
          rw [negates_of_spacedChars negated] at notBefore
          cases notBefore
        have again := tokensOf_test before notNegated
        rw [ih] at again
        exact again
      · have lexes := lexes_ofLexeme notBlank reads fits test
        rw [lexes _ before, ih]
        rfl

theorem spacedChars_cons (token : Token) (rest : List Token) :
    spacedChars (token :: rest) =
      ' ' :: [' '].intercalate ((token :: rest).map fun token => token.text.toList) := by
  induction rest generalizing token with
  | nil => simp [spacedChars]
  | cons next rest ih =>
      rw [spacedChars, ih]
      simp

/-- The texts of the tokens with single spaces between them are read as the same tokens. -/
theorem tokenize_respaced (text : String) :
    tokenize (" ".intercalate ((tokenize text).map Token.text)) = tokenize text := by
  have again := tokensOf_spacedChars text.toList
  have chars : (" ".intercalate ((tokenize text).map Token.text)).toList =
      [' '].intercalate ((tokenize text).map fun token => token.text.toList) := by
    rw [String.toList_intercalate, List.map_map]
    rfl
  rw [tokenize, chars]
  change tokensOf (spacedChars (tokenize text)) = tokenize text at again
  cases tokens : tokenize text with
  | nil => exact tokensOf_nil
  | cons token rest =>
      have space : isBlank ' ' = true := by decide
      rw [tokens, spacedChars_cons, tokensOf_of_isBlank space] at again
      exact again

example : (tokenize "a>=-3 AND(b IS\tNOT-1e5)").map Token.text =
    ["a", ">=", "-3", "AND", "(", "b", "IS NOT", "-1e5", ")"] := by
  decide +kernel

end TableSieve
