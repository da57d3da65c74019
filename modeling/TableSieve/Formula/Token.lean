import TableSieve.Formula.Printer
import TableSieve.Number.Reading
import TableSieve.Text.Split

/-!
Tokens of a formula. At every character that is not white space the first alternative that matches
is taken: a date literal, a parenthesis, an operator, a negative number, a number with an exponent,
a run of word characters, points and plus signs, or the single character. Nothing but white space
is skipped, so a stray character becomes a token that the grammar refuses.
-/

namespace TableSieve

open TableSieve.Number TableSieve.Text

inductive TokenKind
  | identifier
  | number
  | date
  | missing
  | operator
  | openParen
  | closeParen
  deriving DecidableEq

structure Token where
  kind : TokenKind
  text : String
  deriving DecidableEq

def Token.isOperator (token : Token) (text : String) : Bool :=
  token.kind = .operator && token.text == text

namespace Lexeme

def afterDigits? : List Char → Option (List Char)
  | [] => none
  | c :: rest => if isDecimalDigit c then some (rest.dropWhile isDecimalDigit) else none

def afterDigitCount? : Nat → List Char → Option (List Char)
  | 0, chars => some chars
  | _ + 1, [] => none
  | count + 1, c :: rest => if isDecimalDigit c then afterDigitCount? count rest else none

def endsWord : List Char → Bool
  | [] => true
  | c :: _ => !isWord c

def afterWholeWord? (word chars : List Char) : Option (List Char) :=
  (after? word chars).filter endsWord

def afterDate? (chars : List Char) : Option (List Char) := do
  let rest ← after? ['D', 'A', 'T', 'E', '('] chars
  let rest ← afterDigitCount? 4 (dropBlanks rest)
  let rest ← afterDigitCount? 2 (← after? ['-'] rest)
  let rest ← afterDigitCount? 2 (← after? ['-'] rest)
  after? [')'] (dropBlanks rest)

def afterIsNot? (chars : List Char) : Option (List Char) :=
  match after? ['I', 'S'] chars with
  | some (c :: rest) =>
    if isBlank c then afterWholeWord? ['N', 'O', 'T'] (dropBlanks rest) else none
  | _ => none

/-- Longer symbols come before their beginnings. -/
def symbols : List (List Char) :=
  [['<', '='], ['>', '='], ['=', '='], ['!', '='], ['<'], ['>'], ['&'], ['|']]

def afterOperator? (chars : List Char) : Option (List Char) :=
  (afterIsNot? chars).or
    ((afterWholeWord? ['I', 'S'] chars).or (symbols.findSome? fun symbol => after? symbol chars))

def afterFraction? (chars : List Char) : Option (List Char) :=
  (after? ['.'] chars).bind afterDigits?

def afterExponent? : List Char → Option (List Char)
  | mark :: sign :: rest =>
    if mark = 'e' ∨ mark = 'E' then
      afterDigits? (if sign = '+' ∨ sign = '-' then rest else sign :: rest)
    else none
  | _ => none

def skip (step? : List Char → Option (List Char)) (chars : List Char) : List Char :=
  (step? chars).getD chars

def afterNegative? (chars : List Char) : Option (List Char) := do
  let rest ← afterDigits? (← after? ['-'] chars)
  some (skip afterExponent? (skip afterFraction? rest))

def afterScientific? (chars : List Char) : Option (List Char) := do
  let rest ← afterDigits? chars
  (afterExponent? (skip afterFraction? rest)).filter endsWord

def isWordPart (c : Char) : Bool :=
  isWord c || c == '.' || c == '+'

def afterWord? : List Char → Option (List Char)
  | [] => none
  | c :: rest => if isWordPart c then some (rest.dropWhile isWordPart) else none

inductive Shape
  | date
  | openParen
  | closeParen
  | operator
  | number
  | word
  | other
  deriving DecidableEq

def first (c : Char) (rest : List Char) : Shape × List Char :=
  match afterDate? (c :: rest) with
  | some after => (.date, after)
  | none =>
    if c = '(' then (.openParen, rest)
    else if c = ')' then (.closeParen, rest)
    else match afterOperator? (c :: rest) with
      | some after => (.operator, after)
      | none =>
        match (afterNegative? (c :: rest)).or (afterScientific? (c :: rest)) with
        | some after => (.number, after)
        | none =>
          match afterWord? (c :: rest) with
          | some after => (.word, after)
          | none => (.other, rest)

theorem afterDigits?_length {chars rest : List Char} (found : afterDigits? chars = some rest) :
    rest.length < chars.length := by
  cases chars with
  | nil => simp [afterDigits?] at found
  | cons c chars =>
      simp only [afterDigits?] at found
      split at found
      · simp only [Option.some.injEq] at found
        have := (List.dropWhile_suffix isDecimalDigit (l := chars)).length_le
        simp only [← found, List.length_cons]
        omega
      · simp at found

theorem afterDigitCount?_length {count : Nat} {chars rest : List Char}
    (found : afterDigitCount? count chars = some rest) : rest.length ≤ chars.length := by
  induction count generalizing chars with
  | zero =>
      simp only [afterDigitCount?, Option.some.injEq] at found
      simp [found]
  | succ count ih =>
      cases chars with
      | nil => simp [afterDigitCount?] at found
      | cons c chars =>
          simp only [afterDigitCount?] at found
          split at found
          · have := ih found
            simp only [List.length_cons]
            omega
          · simp at found

theorem afterWholeWord?_length {word chars rest : List Char}
    (found : afterWholeWord? word chars = some rest) :
    rest.length + word.length = chars.length := by
  simp only [afterWholeWord?, Option.filter_eq_some_iff] at found
  exact after?_length found.1

theorem afterDate?_length {chars rest : List Char} (found : afterDate? chars = some rest) :
    rest.length < chars.length := by
  simp only [afterDate?, Option.bind_eq_bind, Option.bind_eq_some_iff] at found
  obtain ⟨opened, name, yearEnd, year, monthStart, firstDash, monthEnd, month,
    dayStart, secondDash, dayEnd, day, close⟩ := found
  have nameLength := after?_length name
  have openedBlanks := dropBlanks_length_le opened
  have yearLength := afterDigitCount?_length year
  have firstDashLength := after?_length firstDash
  have monthLength := afterDigitCount?_length month
  have secondDashLength := after?_length secondDash
  have dayLength := afterDigitCount?_length day
  have dayEndBlanks := dropBlanks_length_le dayEnd
  have closeLength := after?_length close
  simp only [List.length_cons, List.length_nil]
    at nameLength firstDashLength secondDashLength closeLength
  omega

theorem afterIsNot?_length {chars rest : List Char} (found : afterIsNot? chars = some rest) :
    rest.length < chars.length := by
  simp only [afterIsNot?] at found
  split at found
  · rename_i c more start
    split at found
    · have startLength := after?_length start
      have wordLength := afterWholeWord?_length found
      have blanks := dropBlanks_length_le more
      simp only [List.length_cons, List.length_nil] at startLength wordLength
      omega
    · simp at found
  · simp at found

theorem afterOperator?_length {chars rest : List Char} (found : afterOperator? chars = some rest) :
    rest.length < chars.length := by
  simp only [afterOperator?, Option.or_eq_some_iff] at found
  rcases found with found | ⟨_, found | ⟨_, found⟩⟩
  · exact afterIsNot?_length found
  · have := afterWholeWord?_length found
    simp only [List.length_cons] at this
    omega
  · obtain ⟨symbol, member, found⟩ := List.exists_of_findSome?_eq_some found
    have positive : 0 < symbol.length := by
      simp only [symbols, List.mem_cons, List.not_mem_nil, or_false] at member
      rcases member with rfl | rfl | rfl | rfl | rfl | rfl | rfl | rfl <;> decide
    have := after?_length found
    omega

theorem skip_length {step? : List Char → Option (List Char)} {chars : List Char}
    (shorter : ∀ rest, step? chars = some rest → rest.length < chars.length) :
    (skip step? chars).length ≤ chars.length := by
  simp only [skip]
  cases found : step? chars with
  | none => simp
  | some rest => exact Nat.le_of_lt (shorter rest found)

theorem afterFraction?_length {chars rest : List Char} (found : afterFraction? chars = some rest) :
    rest.length < chars.length := by
  simp only [afterFraction?, Option.bind_eq_some_iff] at found
  obtain ⟨point, start, digits⟩ := found
  have startLength := after?_length start
  have digitsLength := afterDigits?_length digits
  omega

theorem afterExponent?_length {chars rest : List Char} (found : afterExponent? chars = some rest) :
    rest.length < chars.length := by
  unfold afterExponent? at found
  split at found
  · split at found
    · have := afterDigits?_length found
      split at this <;> simp only [List.length_cons] at this ⊢ <;> omega
    · simp at found
  · simp at found

theorem afterNegative?_length {chars rest : List Char} (found : afterNegative? chars = some rest) :
    rest.length < chars.length := by
  simp only [afterNegative?, Option.bind_eq_bind, Option.bind_eq_some_iff,
    Option.some.injEq] at found
  obtain ⟨minus, start, digits, run, tail⟩ := found
  have startLength := after?_length start
  have runLength := afterDigits?_length run
  have fractionLength := @skip_length afterFraction? digits fun _ => afterFraction?_length
  have exponentLength := @skip_length afterExponent? (skip afterFraction? digits)
    fun _ => afterExponent?_length
  rw [tail] at exponentLength
  omega

theorem afterScientific?_length {chars rest : List Char}
    (found : afterScientific? chars = some rest) : rest.length < chars.length := by
  simp only [afterScientific?, Option.bind_eq_bind, Option.bind_eq_some_iff,
    Option.filter_eq_some_iff] at found
  obtain ⟨digits, run, tail, _⟩ := found
  have runLength := afterDigits?_length run
  have fractionLength := @skip_length afterFraction? digits fun _ => afterFraction?_length
  have exponentLength := afterExponent?_length tail
  omega

theorem afterWord?_length {chars rest : List Char} (found : afterWord? chars = some rest) :
    rest.length < chars.length := by
  cases chars with
  | nil => simp [afterWord?] at found
  | cons c chars =>
      simp only [afterWord?] at found
      split at found
      · simp only [Option.some.injEq] at found
        have := (List.dropWhile_suffix isWordPart (l := chars)).length_le
        simp only [← found, List.length_cons]
        omega
      · simp at found

theorem first_length (c : Char) (rest : List Char) : (first c rest).2.length < rest.length + 1 := by
  have step {after : List Char} (shorter : after.length < (c :: rest).length) :
      after.length < rest.length + 1 := by simpa using shorter
  simp only [first]
  split
  · rename_i found; exact step (afterDate?_length found)
  · split
    · exact Nat.lt_succ_self _
    · split
      · exact Nat.lt_succ_self _
      · split
        · rename_i found; exact step (afterOperator?_length found)
        · split
          · rename_i found
            rcases Option.or_eq_some_iff.mp found with found | ⟨_, found⟩
            · exact step (afterNegative?_length found)
            · exact step (afterScientific?_length found)
          · split
            · rename_i found; exact step (afterWord?_length found)
            · exact Nat.lt_succ_self _

end Lexeme

def isNumberWord (word : List Char) : Bool :=
  match word with
  | [] => false
  | c :: _ => (isAsciiDigit c || c == '.') && (readFloat? word).isSome

def Token.ofWord (word : List Char) : Token :=
  let text := String.ofList word
  if text == "+" then ⟨.operator, text⟩
  else if text == missingWord then ⟨.missing, text⟩
  else if isNumberWord word then ⟨.number, text⟩
  else ⟨.identifier, text⟩

/-- White space inside a date is dropped and inside an operator squeezed. -/
def Token.ofLexeme (shape : Lexeme.Shape) (chars : List Char) : Token :=
  match shape with
  | .date => ⟨.date, String.ofList (withoutBlanks chars)⟩
  | .openParen => ⟨.openParen, String.ofList chars⟩
  | .closeParen => ⟨.closeParen, String.ofList chars⟩
  | .operator => ⟨.operator, String.ofList (squeezeBlanks chars)⟩
  | .number => ⟨.number, String.ofList chars⟩
  | .word => Token.ofWord chars
  | .other => ⟨.operator, String.ofList chars⟩

def tokensOf : List Char → List Token
  | [] => []
  | c :: rest =>
    if isBlank c then tokensOf rest
    else
      let lexeme := Lexeme.first c rest
      let chars := (c :: rest).take (rest.length + 1 - lexeme.2.length)
      Token.ofLexeme lexeme.1 chars :: tokensOf lexeme.2
termination_by chars => chars.length
decreasing_by
  · simp
  · exact Lexeme.first_length c rest

theorem tokensOf_nil : tokensOf [] = [] := by
  rw [tokensOf]

theorem tokensOf_of_isBlank {c : Char} {rest : List Char} (blank : isBlank c = true) :
    tokensOf (c :: rest) = tokensOf rest := by
  rw [tokensOf, if_pos blank]

theorem tokensOf_cons {c : Char} {rest : List Char} (notBlank : isBlank c = false) :
    tokensOf (c :: rest) =
      Token.ofLexeme (Lexeme.first c rest).1
        ((c :: rest).take (rest.length + 1 - (Lexeme.first c rest).2.length)) ::
          tokensOf (Lexeme.first c rest).2 := by
  rw [tokensOf, if_neg (by simp [notBlank])]

def tokenize (text : String) : List Token :=
  tokensOf text.toList

end TableSieve
