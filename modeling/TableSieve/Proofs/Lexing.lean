import Mathlib.Data.List.TakeWhile
import TableSieve.Proofs.DecimalText
import TableSieve.Proofs.Grammar

/-!
Lexing piece by piece. Before a blank or a closing parenthesis a token ends, whatever comes after:
each alternative matches there exactly what it matches at the end of a text.
-/

namespace TableSieve

open TableSieve.Formula (after?_eq_some_iff)
open TableSieve.Number TableSieve.Text

/-! Characters. -/

namespace Text

def blankCodes : List Nat :=
  [9, 10, 11, 12, 13, 0x20, 0x85, 0xA0, 0x1680, 0x2000, 0x2001, 0x2002, 0x2003, 0x2004, 0x2005,
    0x2006, 0x2007, 0x2008, 0x2009, 0x200A, 0x2028, 0x2029, 0x202F, 0x205F, 0x3000]

theorem mem_blankCodes {c : Char} (blank : isBlank c = true) : c.toNat ∈ blankCodes := by
  simp only [isBlank, Bool.or_eq_true, Bool.and_eq_true, decide_eq_true_eq, beq_iff_eq] at blank
  simp only [blankCodes, List.mem_cons, List.not_mem_nil, or_false]
  omega

theorem not_isWord_of_isBlank {c : Char} (blank : isBlank c = true) : isWord c = false := by
  have all : ∀ code ∈ blankCodes, isWord (Char.ofNat code) = false := by decide +kernel
  have same := all c.toNat (mem_blankCodes blank)
  rwa [Char.ofNat_toNat] at same

theorem not_isDecimalDigit_of_isBlank {c : Char} (blank : isBlank c = true) :
    isDecimalDigit c = false := by
  have all : ∀ code ∈ blankCodes, isDecimalDigit (Char.ofNat code) = false := by decide +kernel
  have same := all c.toNat (mem_blankCodes blank)
  rwa [Char.ofNat_toNat] at same

theorem isAscii_of_isAsciiDigit {c : Char} (digit : isAsciiDigit c = true) : c.toNat < 128 := by
  simp only [isAsciiDigit, Bool.and_eq_true, decide_eq_true_eq] at digit
  exact Nat.lt_of_le_of_lt digit.2 (by decide)

theorem isDecimalDigit_of_isAsciiDigit {c : Char} (digit : isAsciiDigit c = true) :
    isDecimalDigit c = true := by
  rw [isDecimalDigit, if_pos (isAscii_of_isAsciiDigit digit), digit]

theorem isWord_of_isAsciiDigit {c : Char} (digit : isAsciiDigit c = true) : isWord c = true := by
  rw [isWord, if_pos (isAscii_of_isAsciiDigit digit), isAsciiWord, digit]
  rfl

end Text

namespace Lexeme

def Breaks : List Char → Prop
  | [] => True
  | c :: _ => isBlank c = true ∨ c = ')'

def Solid (c : Char) : Prop :=
  isBlank c = false ∧ c ≠ ')'

theorem Breaks.not_isWordPart {c : Char} {rest : List Char} (breaks : Breaks (c :: rest)) :
    isWordPart c = false := by
  rcases breaks with blank | rfl
  · have notWord := not_isWord_of_isBlank blank
    have notPoint : c ≠ '.' := by
      rintro rfl
      simp [isBlank] at blank
    have notPlus : c ≠ '+' := by
      rintro rfl
      simp [isBlank] at blank
    simp [isWordPart, notWord, notPoint, notPlus]
  · decide

theorem not_isBlank_of_isWordPart {c : Char} (part : isWordPart c = true) : isBlank c = false := by
  cases blank : isBlank c with
  | false => rfl
  | true =>
      have breaks : Breaks [c] := Or.inl blank
      rw [breaks.not_isWordPart] at part
      cases part

theorem Breaks.not_isDecimalDigit {c : Char} {rest : List Char} (breaks : Breaks (c :: rest)) :
    isDecimalDigit c = false := by
  rcases breaks with blank | rfl
  · exact not_isDecimalDigit_of_isBlank blank
  · decide

theorem Breaks.ne_of_solid {c other : Char} {rest : List Char} (breaks : Breaks (c :: rest))
    (solid : Solid other) : c ≠ other := by
  rintro rfl
  rcases breaks with blank | close
  · rw [solid.1] at blank
    cases blank
  · exact solid.2 close

theorem endsWord_append {chars rest : List Char} (breaks : Breaks rest) :
    endsWord (chars ++ rest) = endsWord chars := by
  cases chars with
  | cons c chars => rfl
  | nil =>
      cases rest with
      | nil => rfl
      | cons c rest =>
          have notPart := breaks.not_isWordPart
          simp only [isWordPart, Bool.or_eq_false_iff] at notPart
          simp [endsWord, notPart.1.1]

/-! Alternatives. -/

/-- What the step matches does not depend on what follows the break. -/
def Local (step? : List Char → Option (List Char)) : Prop :=
  ∀ chars rest, Breaks rest → step? (chars ++ rest) = (step? chars).map (· ++ rest)

theorem dropWhile_append_of_breaks {holds : Char → Bool} {chars rest : List Char}
    (stops : ∀ c more, rest = c :: more → holds c = false) :
    (chars ++ rest).dropWhile holds = chars.dropWhile holds ++ rest := by
  induction chars with
  | nil =>
      cases rest with
      | nil => rfl
      | cons c more => simp [stops c more rfl]
  | cons c chars ih =>
      rw [List.cons_append, List.dropWhile_cons, List.dropWhile_cons, ih]
      split <;> rfl

theorem afterDigits?_append_of_stops {chars rest : List Char}
    (stops : ∀ c more, rest = c :: more → isDecimalDigit c = false) :
    afterDigits? (chars ++ rest) = (afterDigits? chars).map (· ++ rest) := by
  cases chars with
  | nil =>
      cases rest with
      | nil => rfl
      | cons c more => simp [afterDigits?, stops c more rfl]
  | cons c chars =>
      simp only [List.cons_append, afterDigits?, dropWhile_append_of_breaks stops]
      split <;> rfl

theorem local_afterDigits? : Local afterDigits? := by
  intro chars rest breaks
  refine afterDigits?_append_of_stops ?_
  rintro c more rfl
  exact breaks.not_isDecimalDigit

theorem local_afterWord? : Local afterWord? := by
  intro chars rest breaks
  have stops : ∀ c more, rest = c :: more → isWordPart c = false := by
    rintro c more rfl
    exact breaks.not_isWordPart
  cases chars with
  | nil =>
      cases rest with
      | nil => rfl
      | cons c more => simp [afterWord?, stops c more rfl]
  | cons c chars =>
      simp only [List.cons_append, afterWord?, dropWhile_append_of_breaks stops]
      split <;> rfl

theorem local_after? {expected : List Char} (solid : ∀ c ∈ expected, Solid c) :
    Local (after? expected) := by
  intro chars rest breaks
  induction expected generalizing chars with
  | nil => rfl
  | cons first more ih =>
      obtain ⟨firstSolid, moreSolid⟩ := List.forall_mem_cons.mp solid
      cases chars with
      | nil =>
          cases rest with
          | nil => rfl
          | cons c rest => simp [after?, breaks.ne_of_solid firstSolid]
      | cons c chars =>
          simp only [List.cons_append, after?, ih moreSolid]
          split <;> rfl

theorem Local.bind {first next : List Char → Option (List Char)} (firstLocal : Local first)
    (nextLocal : Local next) : Local fun chars => (first chars).bind next := by
  intro chars rest breaks
  simp only [firstLocal chars rest breaks]
  cases first chars with
  | none => rfl
  | some after => exact nextLocal after rest breaks

theorem Local.endsWord {step? : List Char → Option (List Char)} (isLocal : Local step?) :
    Local fun chars => (step? chars).filter endsWord := by
  intro chars rest breaks
  simp only [isLocal chars rest breaks]
  cases step? chars with
  | none => rfl
  | some after =>
      simp only [Option.map_some, Option.filter_some, endsWord_append breaks]
      split <;> rfl

theorem Local.skip {step? : List Char → Option (List Char)} (isLocal : Local step?)
    {chars rest : List Char} (breaks : Breaks rest) :
    skip step? (chars ++ rest) = skip step? chars ++ rest := by
  rw [Lexeme.skip, Lexeme.skip, isLocal chars rest breaks]
  cases step? chars <;> rfl

theorem Local.skipping {first next : List Char → Option (List Char)} (firstLocal : Local first)
    (nextLocal : Local next) : Local fun chars => (next (Lexeme.skip first chars)) := by
  intro chars rest breaks
  simp only [firstLocal.skip breaks]
  exact nextLocal _ rest breaks

theorem local_afterFraction? : Local afterFraction? :=
  (local_after? (by simp [Solid, isBlank])).bind local_afterDigits?

theorem local_afterExponent? : Local afterExponent? := by
  intro chars rest breaks
  match chars with
  | [] =>
      match rest with
      | [] | [_] => rfl
      | mark :: sign :: more =>
          have lower := breaks.ne_of_solid (by simp [Solid, isBlank] : Solid 'e')
          have upper := breaks.ne_of_solid (by simp [Solid, isBlank] : Solid 'E')
          simp [afterExponent?, lower, upper]
  | [mark] =>
      match rest with
      | [] => rfl
      | sign :: more =>
          have plus := breaks.ne_of_solid (by simp [Solid, isBlank] : Solid '+')
          have minus := breaks.ne_of_solid (by simp [Solid, isBlank] : Solid '-')
          simp [afterExponent?, plus, minus, afterDigits?, breaks.not_isDecimalDigit]
  | mark :: sign :: chars =>
      simp only [List.cons_append, afterExponent?]
      split
      · split
        · exact local_afterDigits? chars rest breaks
        · exact local_afterDigits? (sign :: chars) rest breaks
      · rfl

theorem local_afterScientific? : Local afterScientific? :=
  local_afterDigits?.bind (local_afterFraction?.skipping local_afterExponent?).endsWord

theorem local_afterNegative? : Local afterNegative? := by
  have tail : Local fun chars => some (skip afterExponent? (skip afterFraction? chars)) := by
    intro chars rest breaks
    simp only [local_afterFraction?.skip breaks, local_afterExponent?.skip breaks, Option.map_some]
  have minus : Local (after? ['-']) := local_after? (by simp [Solid, isBlank])
  have steps := (minus.bind local_afterDigits?).bind tail
  intro chars rest breaks
  have same := steps chars rest breaks
  simp only [Option.bind_assoc] at same
  exact same

theorem local_afterWholeWord? {word : List Char} (solid : ∀ c ∈ word, Solid c) :
    Local (afterWholeWord? word) :=
  (local_after? solid).endsWord

theorem local_findSymbol :
    Local fun chars => symbols.findSome? fun symbol => after? symbol chars := by
  intro chars rest breaks
  have solid : ∀ symbol ∈ symbols, ∀ c ∈ symbol, Solid c := by
    simp [symbols, Solid, isBlank]
  generalize symbols = all at *
  induction all with
  | nil => rfl
  | cons symbol all ih =>
      obtain ⟨firstSolid, moreSolid⟩ := List.forall_mem_cons.mp solid
      simp only [List.findSome?_cons, local_after? firstSolid chars rest breaks]
      cases after? symbol chars with
      | some after => rfl
      | none => exact ih moreSolid

/-! Lexemes. -/

theorem first_eq_word_iff {c : Char} {rest after : List Char} :
    first c rest = (.word, after) ↔
      afterDate? (c :: rest) = none ∧ c ≠ '(' ∧ c ≠ ')' ∧ afterOperator? (c :: rest) = none ∧
        (afterNegative? (c :: rest)).or (afterScientific? (c :: rest)) = none ∧
          afterWord? (c :: rest) = some after := by
  rw [first]
  cases afterDate? (c :: rest) with
  | some _ => simp
  | none =>
    by_cases opens : c = '('
    · simp [opens]
    by_cases closes : c = ')'
    · simp [closes]
    cases afterOperator? (c :: rest) with
    | some _ => simp [opens, closes]
    | none =>
      cases (afterNegative? (c :: rest)).or (afterScientific? (c :: rest)) with
      | some _ => simp [opens, closes]
      | none => cases afterWord? (c :: rest) <;> simp [opens, closes]

theorem isWordPart_of_afterWord? {chars : List Char} (whole : afterWord? chars = some []) :
    ∀ c ∈ chars, isWordPart c = true := by
  cases chars with
  | nil => simp [afterWord?] at whole
  | cons c rest =>
      rw [afterWord?] at whole
      split at whole
      · rename_i part
        have all := List.dropWhile_eq_nil_iff.mp (Option.some.inj whole)
        exact List.forall_mem_cons.mpr ⟨part, all⟩
      · cases whole

theorem afterWord?_of_isWordPart {c : Char} {rest : List Char}
    (parts : ∀ d ∈ c :: rest, isWordPart d = true) : afterWord? (c :: rest) = some [] := by
  obtain ⟨part, others⟩ := List.forall_mem_cons.mp parts
  rw [afterWord?, if_pos part, List.dropWhile_eq_nil_iff.mpr others]

theorem afterDate?_eq_none {chars : List Char} (noOpening : '(' ∉ chars) {rest : List Char}
    (breaks : Breaks rest) : afterDate? (chars ++ rest) = none := by
  have noStart : after? ['D', 'A', 'T', 'E', '('] chars = none := by
    cases found : after? ['D', 'A', 'T', 'E', '('] chars with
    | none => rfl
    | some after =>
        have same := after?_eq_some_iff.mp found
        exact absurd (by simp [same]) noOpening
  have start : Local (after? ['D', 'A', 'T', 'E', '(']) := local_after? (by simp [Solid, isBlank])
  rw [afterDate?, start chars rest breaks, noStart]
  rfl

theorem afterOperator?_eq_none {chars : List Char} (parts : ∀ c ∈ chars, isWordPart c = true)
    (alone : afterOperator? chars = none) {rest : List Char} (breaks : Breaks rest) :
    afterOperator? (chars ++ rest) = none := by
  simp only [afterOperator?, Option.or_eq_none_iff] at alone ⊢
  obtain ⟨_, noWord, noSymbol⟩ := alone
  have test : Local (after? ['I', 'S']) := local_after? (by simp [Solid, isBlank])
  refine ⟨?_, ?_, ?_⟩
  · -- What goes on with a word part cannot go on with the blank before `NOT`.
    rw [afterIsNot?, test chars rest breaks]
    cases found : after? ['I', 'S'] chars with
    | none => rfl
    | some after =>
        cases after with
        | nil => simp [afterWholeWord?, found, endsWord] at noWord
        | cons c more =>
            have part := parts c (by simp [after?_eq_some_iff.mp found])
            simp [not_isBlank_of_isWordPart part]
  · have whole : Local (afterWholeWord? ['I', 'S']) :=
      local_afterWholeWord? (by simp [Solid, isBlank])
    rw [whole chars rest breaks, noWord]
    rfl
  · have same := local_findSymbol chars rest breaks
    simp only [noSymbol, Option.map_none] at same
    exact same

theorem local_number {chars rest : List Char} (breaks : Breaks rest) :
    (afterNegative? (chars ++ rest)).or (afterScientific? (chars ++ rest)) =
      ((afterNegative? chars).or (afterScientific? chars)).map (· ++ rest) := by
  rw [local_afterNegative? chars rest breaks, local_afterScientific? chars rest breaks]
  cases afterNegative? chars <;> rfl

theorem first_word_append {c : Char} {word rest : List Char} (alone : first c word = (.word, []))
    (breaks : Breaks rest) : first c (word ++ rest) = (.word, rest) := by
  obtain ⟨_, notOpen, notClose, noOperator, noNumber, whole⟩ := first_eq_word_iff.mp alone
  have parts := isWordPart_of_afterWord? whole
  have noOpening : '(' ∉ c :: word := by
    intro opening
    have part := parts '(' opening
    simp [isWordPart, isWord, isAsciiWord, isAsciiDigit] at part
  rw [first_eq_word_iff, ← List.cons_append]
  refine ⟨afterDate?_eq_none noOpening breaks, notOpen, notClose,
    afterOperator?_eq_none parts noOperator breaks, ?_, ?_⟩
  · rw [local_number breaks, noNumber]
    rfl
  · rw [local_afterWord? (c :: word) rest breaks, whole]
    rfl

end Lexeme

/-! Texts in writing. -/

open Lexeme

/-- Before a break the characters are read as these tokens. -/
def Lexes (chars : List Char) (tokens : List Token) : Prop :=
  ∀ rest, Breaks rest → tokensOf (chars ++ rest) = tokens ++ tokensOf rest

theorem tokensOf_of_first {c : Char} {chars rest : List Char} {shape : Shape}
    (notBlank : isBlank c = false) (reads : first c (chars ++ rest) = (shape, rest)) :
    tokensOf (c :: chars ++ rest) = Token.ofLexeme shape (c :: chars) :: tokensOf rest := by
  have size : (chars ++ rest).length + 1 - rest.length = (c :: chars).length := by
    simp only [List.length_append, List.length_cons]
    omega
  rw [List.cons_append, tokensOf_cons notBlank, reads, size, ← List.cons_append, List.take_left]

theorem lexes_of_first {c : Char} {chars : List Char} (shape : Shape)
    (notBlank : isBlank c = false)
    (reads : ∀ rest, Breaks rest → first c (chars ++ rest) = (shape, rest)) :
    Lexes (c :: chars) [Token.ofLexeme shape (c :: chars)] :=
  fun rest breaks => tokensOf_of_first notBlank (reads rest breaks)

theorem tokensOf_blank_append {gap : List Char} (blank : ∀ c ∈ gap, isBlank c = true)
    (rest : List Char) : tokensOf (gap ++ rest) = tokensOf rest := by
  induction gap with
  | nil => rfl
  | cons c gap ih =>
      obtain ⟨first, later⟩ := List.forall_mem_cons.mp blank
      rw [List.cons_append, tokensOf_of_isBlank first, ih later]

namespace Lexes

variable {chars : List Char} {tokens : List Token}

theorem apart (lexes : Lexes chars tokens) {gap : List Char} (some : gap ≠ [])
    (blank : ∀ c ∈ gap, isBlank c = true) {next : List Char} {more : List Token}
    (nextLexes : Lexes next more) : Lexes (chars ++ (gap ++ next)) (tokens ++ more) := by
  intro rest breaks
  obtain ⟨space, gap, rfl⟩ := List.exists_cons_of_ne_nil some
  have opens : Breaks (space :: gap ++ next ++ rest) := .inl (blank space (List.mem_cons_self ..))
  rw [List.append_assoc, lexes _ opens, List.append_assoc (_ :: _), tokensOf_blank_append blank,
    nextLexes rest breaks, List.append_assoc]

theorem spaced (lexes : Lexes chars tokens) {next : List Char} {more : List Token}
    (nextLexes : Lexes next more) : Lexes (chars ++ ' ' :: next) (tokens ++ more) := by
  have space : ∀ c ∈ [' '], isBlank c = true := by simp [isBlank]
  exact lexes.apart (List.cons_ne_nil ' ' []) space nextLexes

theorem parenthesized (lexes : Lexes chars tokens) :
    Lexes ('(' :: (chars ++ [')']))
      (⟨.openParen, "("⟩ :: (tokens ++ [⟨.closeParen, ")"⟩])) := by
  intro rest breaks
  have opens : first '(' (chars ++ ')' :: rest) = (.openParen, chars ++ ')' :: rest) := by
    simp [first, afterDate?, after?]
  have closes : first ')' rest = (.closeParen, rest) := by
    simp [first, afterDate?, after?]
  have close : Breaks (')' :: rest) := Or.inr rfl
  have closed : tokensOf (')' :: rest) = ⟨.closeParen, ")"⟩ :: tokensOf rest := by
    rw [tokensOf_cons (by decide), closes, Nat.add_sub_cancel_left]
    rfl
  have regroup : '(' :: (chars ++ [')']) ++ rest = '(' :: (chars ++ ')' :: rest) := by simp
  rw [regroup, tokensOf_cons (by decide), opens, Nat.add_sub_cancel_left, lexes _ close, closed]
  simp [Token.ofLexeme]

theorem tokenize_eq {text : String} (lexes : Lexes text.toList tokens) :
    tokenize text = tokens := by
  have whole := lexes [] trivial
  rw [List.append_nil, tokensOf_nil, List.append_nil] at whole
  exact whole

end Lexes

end TableSieve
