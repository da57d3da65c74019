import TableSieve.Proofs.WrittenTokens

/-!
Plus signs inside words. A plus sign ends the digits and the fraction of a number, stands in its
exponent only directly behind the mark, and continues a word. So whether a word goes on with a plus
sign does not depend on the word parts behind the sign, unless the two make an exponent.
-/

namespace TableSieve

open TableSieve.Formula
open TableSieve.Lexeme TableSieve.Number TableSieve.Text

/-! Numbers before a plus sign. -/

namespace Lexeme

theorem afterDigits?_plus (chars more : List Char) :
    afterDigits? (chars ++ '+' :: more) = (afterDigits? chars).map (· ++ '+' :: more) := by
  refine afterDigits?_append_of_stops fun c rest same => ?_
  obtain ⟨rfl, _⟩ := List.cons.inj same
  decide

theorem skip_afterFraction?_plus (chars more : List Char) :
    skip afterFraction? (chars ++ '+' :: more) = skip afterFraction? chars ++ '+' :: more := by
  unfold skip afterFraction?
  cases chars with
  | nil => simp [after?]
  | cons c chars =>
      by_cases point : c = '.'
      · simp only [List.cons_append, after?, point, if_true, Option.bind_some, afterDigits?_plus]
        cases afterDigits? chars <;> simp
      · simp [after?, point]

theorem afterScientific?_plus (chars more : List Char) :
    afterScientific? (chars ++ '+' :: more) =
      (afterDigits? chars).bind fun rest =>
        (afterExponent? (skip afterFraction? rest ++ '+' :: more)).filter endsWord := by
  simp only [afterScientific?, afterDigits?_plus, Option.bind_eq_bind]
  cases afterDigits? chars with
  | none => rfl
  | some rest => simp [skip_afterFraction?_plus]

theorem filter_endsWord_plus (found : Option (List Char)) (more : List Char) :
    (found.map (· ++ '+' :: more)).filter endsWord =
      (found.filter endsWord).map (· ++ '+' :: more) := by
  match found with
  | none => rfl
  | some [] => rfl
  | some (c :: after) =>
      by_cases part : isWord c = true <;> simp [Option.filter_some, endsWord, part]

theorem afterExponent?_plus {chars : List Char} (notMark : ∀ mark, chars ≠ [mark])
    (more : List Char) :
    afterExponent? (chars ++ '+' :: more) = (afterExponent? chars).map (· ++ '+' :: more) := by
  match chars with
  | [] => cases more <;> simp [afterExponent?]
  | [mark] => exact absurd rfl (notMark mark)
  | mark :: sign :: rest =>
      simp only [List.cons_append, afterExponent?]
      split
      · split
        · exact afterDigits?_plus rest more
        · exact afterDigits?_plus (sign :: rest) more
      · rfl

/-- If a plus sign and a digit make no exponent, then a plus sign never does. -/
theorem noScientific_plus (chars : List Char)
    (alone : afterScientific? (chars ++ ['+', '0']) = none) (more : List Char) :
    afterScientific? (chars ++ '+' :: more) = none := by
  rw [afterScientific?_plus] at alone ⊢
  cases digits : afterDigits? chars with
  | none => rfl
  | some rest =>
      simp only [digits, Option.bind_some] at alone ⊢
      by_cases single : ∃ mark, skip afterFraction? rest = [mark]
      · obtain ⟨mark, same⟩ := single
        rw [same] at alone ⊢
        by_cases marks : mark = 'e' ∨ mark = 'E'
        · have digit : isDecimalDigit '0' = true := by decide
          simp [afterExponent?, marks, afterDigits?, digit, endsWord] at alone
        · simp [afterExponent?, marks]
      · have notMark := not_exists.mp single
        rw [afterExponent?_plus notMark, filter_endsWord_plus] at alone ⊢
        rw [Option.map_eq_none_iff.mp alone, Option.map_none]

theorem scientific_plus {chars : List Char} (whole : afterScientific? chars = some [])
    (more : List Char) : afterScientific? (chars ++ '+' :: more) = some ('+' :: more) := by
  rw [afterScientific?_plus]
  simp only [afterScientific?, Option.bind_eq_bind, Option.bind_eq_some_iff] at whole
  obtain ⟨rest, digits, exponent⟩ := whole
  have notMark : ∀ mark, skip afterFraction? rest ≠ [mark] := by
    intro mark same
    simp [same, afterExponent?] at exponent
  rw [digits, Option.bind_some, afterExponent?_plus notMark, filter_endsWord_plus, exponent,
    Option.map_some, List.nil_append]

theorem after?_plus {expected : List Char} (noPlus : '+' ∉ expected) (chars more : List Char) :
    after? expected (chars ++ '+' :: more) =
      (after? expected chars).map (· ++ '+' :: more) := by
  induction expected generalizing chars with
  | nil => rfl
  | cons first expected ih =>
      simp only [List.mem_cons, not_or] at noPlus
      cases chars with
      | nil => simp [after?, noPlus.1]
      | cons c chars =>
          simp only [List.cons_append, after?, ih noPlus.2]
          split <;> rfl

theorem negative_plus {chars : List Char} (whole : afterNegative? chars = some [])
    (more : List Char) : afterNegative? (chars ++ '+' :: more) = some ('+' :: more) := by
  simp only [afterNegative?, Option.bind_eq_bind, Option.bind_eq_some_iff,
    Option.some.injEq] at whole
  obtain ⟨unsigned, minus, rest, digits, exponent⟩ := whole
  have notMark : ∀ mark, skip afterFraction? rest ≠ [mark] := by
    intro mark same
    rw [same] at exponent
    simp [skip, afterExponent?] at exponent
  have plus : skip afterExponent? (skip afterFraction? rest ++ '+' :: more) = '+' :: more := by
    rw [skip, afterExponent?_plus notMark]
    rw [skip] at exponent
    cases found : afterExponent? (skip afterFraction? rest) with
    | none =>
        rw [found, Option.getD_none] at exponent
        simp [exponent]
    | some after =>
        rw [found, Option.getD_some] at exponent
        simp [exponent]
  rw [afterNegative?, after?_plus (by decide), minus]
  simp only [Option.map_some, Option.bind_eq_bind, Option.bind_some, afterDigits?_plus, digits,
    skip_afterFraction?_plus, plus]

theorem eq_minus_of_afterNegative? {c : Char} {rest after : List Char}
    (negative : afterNegative? (c :: rest) = some after) : c = '-' := by
  simp only [afterNegative?, Option.bind_eq_bind, Option.bind_eq_some_iff,
    after?_eq_some_iff] at negative
  obtain ⟨_, same, _⟩ := negative
  exact (List.cons.inj same).1

theorem exists_digit_of_afterScientific? {chars after : List Char}
    (scientific : afterScientific? chars = some after) :
    ∃ c rest, chars = c :: rest ∧ isDecimalDigit c = true := by
  simp only [afterScientific?, Option.bind_eq_bind, Option.bind_eq_some_iff] at scientific
  obtain ⟨_, digits, _⟩ := scientific
  cases chars with
  | nil => cases digits
  | cons c rest =>
      rw [afterDigits?] at digits
      split at digits
      · rename_i digit
        exact ⟨c, rest, rfl, digit⟩
      · cases digits

theorem number_plus {chars : List Char}
    (whole : (afterNegative? chars).or (afterScientific? chars) = some []) (more : List Char) :
    (afterNegative? (chars ++ '+' :: more)).or (afterScientific? (chars ++ '+' :: more)) =
      some ('+' :: more) := by
  rcases Option.or_eq_some_iff.mp whole with negative | ⟨_, scientific⟩
  · rw [negative_plus negative, Option.some_or]
  · obtain ⟨c, rest, rfl, digit⟩ := exists_digit_of_afterScientific? scientific
    have notNegative : afterNegative? (c :: rest ++ '+' :: more) = none := by
      cases negative : afterNegative? (c :: rest ++ '+' :: more) with
      | none => rfl
      | some after =>
          rw [eq_minus_of_afterNegative? negative] at digit
          exact absurd digit (by decide)
    rw [notNegative, scientific_plus scientific, Option.none_or]

end Lexeme

/-! Reading numbers with a plus sign. -/

namespace Number

theorem takeWhile_digits_plus (chars more : List Char) :
    (chars ++ '+' :: more).takeWhile isAsciiDigit = chars.takeWhile isAsciiDigit := by
  induction chars with
  | nil => rfl
  | cons c chars ih =>
      rw [List.cons_append, List.takeWhile_cons, List.takeWhile_cons, ih]

theorem dropWhile_digits_plus (chars more : List Char) :
    (chars ++ '+' :: more).dropWhile isAsciiDigit =
      chars.dropWhile isAsciiDigit ++ '+' :: more := by
  refine dropWhile_append_of_breaks fun c rest same => ?_
  obtain ⟨rfl, _⟩ := List.cons.inj same
  decide

theorem readNat?_plus (chars more : List Char) : readNat? (chars ++ '+' :: more) = none := by
  have notAll : (chars ++ '+' :: more).all isAsciiDigit = false := by
    rw [List.all_eq_false]
    exact ⟨'+', by simp, by decide⟩
  simp [readNat?, notAll]

theorem readExponent?_plus {chars more : List Char}
    (reads : (readExponent? (chars ++ '+' :: more)).isSome = true) :
    (readExponent? (chars ++ ['+', '0'])).isSome = true := by
  match chars with
  | [] => simp [readExponent?] at reads
  | [mark] =>
      simp only [List.cons_append, List.nil_append, readExponent?] at reads ⊢
      split at reads
      · rename_i marks
        rw [if_pos marks]
        decide
      · cases reads
  | mark :: sign :: rest =>
      have unread : readInt? (sign :: (rest ++ '+' :: more)) = none := by
        unfold readInt?
        split
        · rename_i same
          obtain ⟨_, rfl⟩ := List.cons.inj same
          rw [readNat?_plus, Option.map_none]
        · rename_i same
          obtain ⟨_, rfl⟩ := List.cons.inj same
          rw [readNat?_plus, Option.map_none]
        · rw [← List.cons_append, readNat?_plus, Option.map_none]
      simp only [List.cons_append, readExponent?, unread, ite_self] at reads
      cases reads

theorem isSome_readDecimal?_of_point {chars rest : List Char}
    (point : chars.dropWhile isAsciiDigit = '.' :: rest) :
    (readDecimal? chars).isSome =
      (!((chars.takeWhile isAsciiDigit).isEmpty && (rest.takeWhile isAsciiDigit).isEmpty) &&
        (readExponent? (rest.dropWhile isAsciiDigit)).isSome) := by
  simp only [readDecimal?, point]
  split
  · rename_i nothing
    simp [nothing]
  · rename_i some
    simp [some]

theorem isSome_readDecimal?_of_noPoint {chars : List Char}
    (noPoint : ∀ rest, chars.dropWhile isAsciiDigit ≠ '.' :: rest) :
    (readDecimal? chars).isSome =
      (!(chars.takeWhile isAsciiDigit).isEmpty &&
        (readExponent? (chars.dropWhile isAsciiDigit)).isSome) := by
  unfold readDecimal?
  generalize chars.dropWhile isAsciiDigit = afterWhole at noPoint ⊢
  dsimp only
  split
  · exact absurd rfl (noPoint _)
  · split
    · rename_i nothing
      rw [List.isEmpty_nil, Bool.and_true] at nothing
      simp [nothing]
    · rename_i some
      rw [List.isEmpty_nil, Bool.and_true] at some
      simp [some]

theorem readDecimal?_plus (chars : List Char) {more : List Char}
    (reads : (readDecimal? (chars ++ '+' :: more)).isSome = true) :
    (readDecimal? (chars ++ ['+', '0'])).isSome = true := by
  by_cases point : ∃ rest, chars.dropWhile isAsciiDigit = '.' :: rest
  · obtain ⟨rest, point⟩ := point
    have before (tail : List Char) :
        (chars ++ '+' :: tail).dropWhile isAsciiDigit = '.' :: (rest ++ '+' :: tail) := by
      rw [dropWhile_digits_plus, point, List.cons_append]
    rw [isSome_readDecimal?_of_point (before _), Bool.and_eq_true] at reads ⊢
    simp only [takeWhile_digits_plus, dropWhile_digits_plus] at reads ⊢
    exact ⟨reads.1, readExponent?_plus reads.2⟩
  · have noPoint (tail rest : List Char) :
        (chars ++ '+' :: tail).dropWhile isAsciiDigit ≠ '.' :: rest := by
      rw [dropWhile_digits_plus]
      intro same
      cases left : chars.dropWhile isAsciiDigit with
      | nil => simp [left] at same
      | cons c others =>
          rw [left] at same
          obtain ⟨rfl, _⟩ := List.cons.inj same
          exact point ⟨others, left⟩
    rw [isSome_readDecimal?_of_noPoint (noPoint _), Bool.and_eq_true] at reads ⊢
    simp only [takeWhile_digits_plus, dropWhile_digits_plus] at reads ⊢
    exact ⟨reads.1, readExponent?_plus reads.2⟩

theorem toLower_of_starts {c : Char} (starts : (isAsciiDigit c || c == '.') = true) :
    c.toLower ≠ 'i' ∧ c.toLower ≠ 'n' := by
  have codes : ∀ code < 128, (isAsciiDigit (Char.ofNat code) || Char.ofNat code == '.') = true →
      (Char.ofNat code).toLower ≠ 'i' ∧ (Char.ofNat code).toLower ≠ 'n' := by decide +kernel
  have ascii : c.toNat < 128 := by
    rcases Bool.or_eq_true_iff.mp starts with digit | point
    · exact isAscii_of_isAsciiDigit digit
    · rw [beq_iff_eq.mp point]
      decide
  have same := codes c.toNat ascii
  rw [Char.ofNat_toNat] at same
  exact same starts

theorem isNumberWord_iff {c : Char} {rest : List Char} :
    isNumberWord (c :: rest) = true ↔
      (isAsciiDigit c || c == '.') = true ∧ (readDecimal? (c :: rest)).isSome = true := by
  rw [isNumberWord, Bool.and_eq_true]
  refine and_congr_right fun starts => ?_
  obtain ⟨notInf, notNan⟩ := toLower_of_starts starts
  have unsigned : readFloat? (c :: rest) = readMagnitude? false (c :: rest) := by
    unfold readFloat?
    split
    · rename_i same
      rw [(List.cons.inj same).1] at starts
      exact absurd starts (by decide)
    · rename_i same
      rw [(List.cons.inj same).1] at starts
      exact absurd starts (by decide)
    · rfl
  rw [unsigned, readMagnitude?]
  cases readDecimal? (c :: rest) with
  | some decimal => simp
  | none => simp [notInf, notNan]

/-- If a number goes on with a plus sign, then it goes on with a plus sign and a digit. -/
theorem isNumberWord_plus {c : Char} {rest more : List Char}
    (number : isNumberWord (c :: (rest ++ '+' :: more)) = true) :
    isNumberWord (c :: (rest ++ ['+', '0'])) = true := by
  obtain ⟨starts, reads⟩ := isNumberWord_iff.mp number
  exact isNumberWord_iff.mpr ⟨starts, readDecimal?_plus (c :: rest) reads⟩

end Number

/-! Words with a plus sign. -/

namespace Lexeme

theorem findSymbol_eq_none {c : Char} (part : isWordPart c = true) (rest : List Char) :
    (symbols.findSome? fun symbol => after? symbol (c :: rest)) = none := by
  have head : ∀ symbol ∈ symbols, ∃ first more, symbol = first :: more ∧
      isWordPart first = false := by
    simp only [symbols, List.forall_mem_cons, List.not_mem_nil, false_implies, implies_true,
      and_true, List.cons.injEq, ↓existsAndEq, true_and]
    decide
  rw [List.findSome?_eq_none_iff]
  intro symbol listed
  obtain ⟨first, more, rfl, notPart⟩ := head symbol listed
  rw [after?, if_neg]
  rintro rfl
  rw [part] at notPart
  cases notPart

theorem afterOperator?_plus (chars : List Char) (parts : ∀ c ∈ chars, isWordPart c = true)
    (noTest : afterWholeWord? ['I', 'S'] chars = none) (more : List Char) :
    afterOperator? (chars ++ '+' :: more) = none := by
  have start : after? ['I', 'S'] (chars ++ '+' :: more) =
      (after? ['I', 'S'] chars).map (· ++ '+' :: more) := after?_plus (by decide) chars more
  have notIsNot : afterIsNot? (chars ++ '+' :: more) = none := by
    rw [afterIsNot?, start]
    cases found : after? ['I', 'S'] chars with
    | none => rfl
    | some after =>
        cases after with
        | nil =>
            have notBlank : isBlank '+' = false := by decide
            simp [notBlank]
        | cons c after =>
            have part := parts c (by simp [after?_eq_some_iff.mp found])
            simp [not_isBlank_of_isWordPart part]
  have notTest : afterWholeWord? ['I', 'S'] (chars ++ '+' :: more) = none := by
    rw [afterWholeWord?, start, filter_endsWord_plus, ← afterWholeWord?, noTest, Option.map_none]
  have noSymbol : (symbols.findSome? fun symbol => after? symbol (chars ++ '+' :: more)) = none := by
    cases chars with
    | nil => exact findSymbol_eq_none (by decide) more
    | cons c chars => exact findSymbol_eq_none (parts c (List.mem_cons_self ..)) _
  rw [afterOperator?, notIsNot, notTest, noSymbol]
  rfl

def Stops : List Char → Prop
  | [] => True
  | c :: _ => isWordPart c = false

theorem Breaks.stops {rest : List Char} (breaks : Breaks rest) : Stops rest := by
  cases rest with
  | nil => trivial
  | cons c rest => exact breaks.not_isWordPart

theorem afterWord?_append {c : Char} {word rest : List Char}
    (parts : ∀ d ∈ c :: word, isWordPart d = true) (stops : Stops rest) :
    afterWord? (c :: (word ++ rest)) = some rest := by
  obtain ⟨part, others⟩ := List.forall_mem_cons.mp parts
  have ends : ∀ d more, rest = d :: more → isWordPart d = false := by
    rintro d more rfl
    exact stops
  rw [afterWord?, if_pos part, dropWhile_append_of_breaks ends,
    List.dropWhile_eq_nil_iff.mpr others, List.nil_append]

theorem first_word_plus {c : Char} {word more rest : List Char}
    (alone : first c (word ++ ['+', '0']) = (.word, []))
    (parts : ∀ d ∈ more, isWordPart d = true) (stops : Stops rest) :
    first c (word ++ '+' :: more ++ rest) = (.word, rest) := by
  obtain ⟨_, notOpen, notClose, noOperator, noNumber, whole⟩ := first_eq_word_iff.mp alone
  obtain ⟨wordParts, _⟩ := List.forall_mem_append.mp
    (isWordPart_of_afterWord? whole : ∀ d ∈ (c :: word) ++ ['+', '0'], isWordPart d = true)
  have allParts : ∀ d ∈ c :: (word ++ '+' :: more), isWordPart d = true :=
    show ∀ d ∈ (c :: word) ++ '+' :: more, _ from
      List.forall_mem_append.mpr ⟨wordParts, List.forall_mem_cons.mpr ⟨by decide, parts⟩⟩
  have noStart : after? ['D', 'A', 'T', 'E', '('] (c :: word) = none := by
    cases found : after? ['D', 'A', 'T', 'E', '('] (c :: word) with
    | none => rfl
    | some after =>
        have opening := wordParts '(' (by simp [after?_eq_some_iff.mp found])
        exact absurd opening (by decide)
  have notMinus : c ≠ '-' := by
    rintro rfl
    exact absurd (wordParts '-' (List.mem_cons_self ..)) (by decide)
  have noTest : afterWholeWord? ['I', 'S'] (c :: word) = none := by
    have test := (Option.or_eq_none_iff.mp (Option.or_eq_none_iff.mp noOperator).2).1
    have start : after? ['I', 'S'] (c :: (word ++ ['+', '0'])) =
        (after? ['I', 'S'] (c :: word)).map (· ++ ['+', '0']) :=
      after?_plus (by decide) (c :: word) ['0']
    rw [afterWholeWord?, start, filter_endsWord_plus, Option.map_eq_none_iff] at test
    exact test
  obtain ⟨_, noScientific⟩ := Option.or_eq_none_iff.mp noNumber
  have regroup : c :: (word ++ '+' :: more ++ rest) = (c :: word) ++ '+' :: (more ++ rest) := by
    simp
  rw [first_eq_word_iff]
  refine ⟨?_, notOpen, notClose, ?_, Option.or_eq_none_iff.mpr ⟨?_, ?_⟩, ?_⟩
  · rw [regroup, afterDate?, after?_plus (by decide), noStart]
    rfl
  · rw [regroup, afterOperator?_plus (c :: word) wordParts noTest]
  · simp [afterNegative?, after?, notMinus]
  · rw [regroup]
    exact noScientific_plus (c :: word) noScientific (more ++ rest)
  · exact afterWord?_append allParts stops

theorem first_plus {more rest : List Char} (parts : ∀ d ∈ more, isWordPart d = true)
    (stops : Stops rest) : first '+' (more ++ rest) = (.word, rest) := by
  have noOperator : afterOperator? ('+' :: (more ++ rest)) = none :=
    afterOperator?_plus [] (by simp) rfl (more ++ rest)
  have notDigit : isDecimalDigit '+' = false := by decide
  have noNumber : (afterNegative? ('+' :: (more ++ rest))).or
      (afterScientific? ('+' :: (more ++ rest))) = none := by
    simp [afterNegative?, after?, afterScientific?, afterDigits?, notDigit]
  have allParts : ∀ d ∈ '+' :: more, isWordPart d = true :=
    List.forall_mem_cons.mpr ⟨by decide, parts⟩
  exact first_eq_word_iff.mpr ⟨by simp [afterDate?, after?], by decide, by decide, noOperator,
    noNumber, afterWord?_append allParts stops⟩

end Lexeme

theorem ofWord_of_mem_plus {word : List Char} (plus : '+' ∈ word) (notPlus : word ≠ ['+'])
    (notNumber : isNumberWord word = false) :
    Token.ofWord word = ⟨.identifier, String.ofList word⟩ := by
  have different (other : String) (ne : word ≠ other.toList) :
      (String.ofList word == other) = false := by
    rw [beq_eq_false_iff_ne]
    rintro rfl
    exact ne (String.toList_ofList).symm
  have notMissing : word ≠ missingWord.toList := by
    rintro rfl
    exact absurd plus (by decide)
  simp [Token.ofWord, different "+" notPlus, different missingWord notMissing, notNumber]

end TableSieve
