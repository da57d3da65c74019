import TableSieve.Formula.Parser
import TableSieve.Proofs.FormulaNodes

/-!
The grammar of formulas over tokens, and what each reader makes of it. The relations say which
tokens a formula is written with; the readers are described by what they read and the tokens that
they leave. Where no identifier carries a plus sign, a token is read as the one operand that it
stands for.
-/

namespace TableSieve.Formula

open TableSieve.Number TableSieve.Text

inductive IsAtom : Token → Formula → Prop
  | field {text : String} : IsAtom ⟨.identifier, text⟩ (.field text)
  | missing {text : String} : IsAtom ⟨.missing, text⟩ (.literal .missing)
  | date {text : String} {raw : List Char}
      (shape : text.toList = ['D', 'A', 'T', 'E'] ++ '(' :: (raw ++ [')'])) :
      IsAtom ⟨.date, text⟩ (.literal (.date (String.ofList raw)))
  | int {text : String} {value : Int64} (reads : readInt64? text.toList = some value) :
      IsAtom ⟨.number, text⟩ (.literal (.int value))
  | float {text : String} {value : Float} (notInt : readInt64? text.toList = none)
      (reads : readFloat? text.toList = some value) :
      IsAtom ⟨.number, text⟩ (.literal (.float value))

inductive IsOperand : List Token → Formula → Prop
  | atom {token : Token} {formula : Formula} (atom : IsAtom token formula) :
      IsOperand [token] formula
  | sum {token plus : Token} {tokens : List Token} {left right : Formula}
      (atom : IsAtom token left) (isPlus : plus.isOperator "+" = true)
      (rest : IsOperand tokens right) : IsOperand (token :: plus :: tokens) (.sum left right)

inductive Phrase
  | primary
  | conjunction
  | disjunction
  deriving DecidableEq

/-- The tokens with which a formula is written as a phrase. Chains of `&` and of `|` fold to the
left. -/
inductive Derives : Phrase → List Token → Formula → Prop
  | operand {tokens : List Token} {formula : Formula} (operand : IsOperand tokens formula) :
      Derives .primary tokens formula
  | nullTest {tokens : List Token} {test word : Token} {formula : Formula} {negated : Bool}
      (operand : IsOperand tokens formula)
      (isTest : test.isOperator (if negated then "IS NOT" else "IS") = true)
      (isMissing : isMissingWord word = true) :
      Derives .primary (tokens ++ [test, word]) (.nullTest formula negated)
  | compare {lefts rights : List Token} {symbol : Token} {left right : Formula}
      {comparison : Comparison} (leftOperand : IsOperand lefts left)
      (isSymbol : symbol.isOperator comparison.symbol = true)
      (rightOperand : IsOperand rights right) :
      Derives .primary (lefts ++ symbol :: rights) (.compare left comparison right)
  | group {opening closing : Token} {tokens : List Token} {formula : Formula}
      (opens : opening.kind = .openParen) (inner : Derives .disjunction tokens formula)
      (closes : closing.kind = .closeParen) :
      Derives .primary (opening :: (tokens ++ [closing])) (.group formula)
  | one {tokens : List Token} {formula : Formula} (primary : Derives .primary tokens formula) :
      Derives .conjunction tokens formula
  | both {lefts rights : List Token} {symbol : Token} {left right : Formula}
      (leftDerives : Derives .conjunction lefts left) (isAnd : symbol.isOperator "&" = true)
      (rightDerives : Derives .primary rights right) :
      Derives .conjunction (lefts ++ symbol :: rights) (.both left right)
  | all {tokens : List Token} {formula : Formula}
      (conjunction : Derives .conjunction tokens formula) : Derives .disjunction tokens formula
  | either {lefts rights : List Token} {symbol : Token} {left right : Formula}
      (leftDerives : Derives .disjunction lefts left) (isOr : symbol.isOperator "|" = true)
      (rightDerives : Derives .conjunction rights right) :
      Derives .disjunction (lefts ++ symbol :: rights) (.either left right)

/-! Tokens. -/

theorem after?_eq_some_iff {expected chars rest : List Char} :
    after? expected chars = some rest ↔ chars = expected ++ rest := by
  induction expected generalizing chars with
  | nil => simp [after?]
  | cons first more ih =>
      cases chars with
      | nil => simp [after?]
      | cons c chars => by_cases same : c = first <;> simp [after?, same, ih]

theorem between?_eq_some_iff {opening closing : Char} {chars inner : List Char} :
    between? opening closing chars = some inner ↔ chars = opening :: (inner ++ [closing]) := by
  cases chars with
  | nil => simp [between?]
  | cons c rest =>
      rcases List.eq_nil_or_concat rest with rfl | ⟨front, last, rfl⟩
      · simp [between?]
      · by_cases same : c = opening <;> by_cases sameLast : last = closing <;>
          simp [between?, same, sameLast]

theorem ofAtom?_eq_some_iff {token : Token} {formula : Formula} :
    ofAtom? token = some formula ↔ IsAtom token formula := by
  obtain ⟨kind, text⟩ := token
  constructor
  · intro found
    cases kind with
    | identifier => exact Option.some.inj found ▸ .field
    | missing => exact Option.some.inj found ▸ .missing
    | number =>
        simp only [ofAtom?, ofNumber?] at found
        cases int : readInt64? text.toList with
        | some value =>
            simp only [int, Option.some.injEq] at found
            exact found ▸ .int int
        | none =>
            simp only [int, Option.map_eq_some_iff] at found
            obtain ⟨value, reads, rfl⟩ := found
            exact .float int reads
    | date =>
        simp only [ofAtom?, Option.map_eq_some_iff, Option.bind_eq_some_iff, after?_eq_some_iff,
          between?_eq_some_iff] at found
        obtain ⟨raw, ⟨rest, shape, rfl⟩, rfl⟩ := found
        exact .date shape
    | operator | openParen | closeParen => simp [ofAtom?] at found
  · intro atom
    cases atom with
    | field | missing => rfl
    | @date text raw shape =>
        have start := after?_eq_some_iff.mpr shape
        have inside : between? '(' ')' ('(' :: (raw ++ [')'])) = some raw :=
          between?_eq_some_iff.mpr rfl
        simp only [ofAtom?, start, Option.bind_some, inside, Option.map_some]
    | int reads => simp [ofAtom?, ofNumber?, reads]
    | float notInt reads => simp [ofAtom?, ofNumber?, notInt, reads]

def Plain (token : Token) : Prop :=
  token.kind = .identifier →
    '+' ∉ token.text.toList ∧ token.text.toList ≠ [] ∧ Token.ofWord token.text.toList = token

theorem split_eq_singleton {separator : Char} {chars : List Char} (absent : separator ∉ chars) :
    split separator chars = [chars] := by
  induction chars with
  | nil => rfl
  | cons c chars ih =>
      simp only [List.mem_cons, not_or] at absent
      simp [split, Ne.symm absent.1, ih absent.2]

theorem split_append {separator : Char} {piece : List Char} (absent : separator ∉ piece)
    (rest : List Char) :
    split separator (piece ++ separator :: rest) = piece :: split separator rest := by
  induction piece with
  | nil => simp [split]
  | cons c piece ih =>
      simp only [List.mem_cons, not_or] at absent
      simp [split, Ne.symm absent.1, ih absent.2]

theorem ofLeaf?_eq_ofAtom? {token : Token} (plain : Plain token) :
    ofLeaf? token = ofAtom? token := by
  unfold ofLeaf?
  split
  · rename_i identifier
    obtain ⟨noPlus, nonempty, same⟩ := plain identifier
    unfold ofRun?
    split
    · rw [same]
    · have named : ofAtom? token = some (.field token.text) := by simp [ofAtom?, identifier]
      simp [split_eq_singleton noPlus, nonempty, same, named, sumOf?]
  · rfl
  · rfl
  · rfl
  · rename_i operator
    simp [ofAtom?, operator]
  · rename_i openParen
    simp [ofAtom?, openParen]
  · rename_i closeParen
    simp [ofAtom?, closeParen]

theorem plusRun?_eq_none {token : Token} (plain : Plain token) : plusRun? token = none := by
  unfold plusRun?
  split
  · rename_i identifier
    rw [Option.eq_none_iff_forall_ne_some]
    intro run found
    rw [after?_eq_some_iff] at found
    exact (plain identifier).1 (by simp [found])
  · rfl

theorem comparison?_eq_some_iff {token : Token} {comparison : Comparison} :
    comparison? token = some comparison ↔ token.isOperator comparison.symbol = true := by
  unfold comparison? Token.isOperator
  by_cases operator : token.kind = .operator
  · simp only [operator, if_true, decide_true, Bool.true_and, beq_iff_eq]
    constructor
    · intro found
      have same := List.find?_some found
      rw [beq_iff_eq] at same
      exact same.symm
    · intro same
      rw [same]
      cases comparison <;> decide
  · simp [operator]

theorem nullTest?_eq_some_iff {token : Token} {negated : Bool} :
    nullTest? token = some negated ↔
      token.isOperator (if negated then "IS NOT" else "IS") = true := by
  obtain ⟨kind, text⟩ := token
  unfold nullTest? Token.isOperator
  cases negated with
  | true =>
      by_cases same : text = "IS NOT" <;> by_cases operator : kind = .operator <;>
        by_cases plain : text = "IS" <;> simp_all
  | false =>
      by_cases same : text = "IS NOT" <;> by_cases operator : kind = .operator <;>
        by_cases plain : text = "IS" <;> simp_all

theorem connective?_eq_and_iff {token : Token} :
    connective? token = some .and ↔ token.isOperator "&" = true := by
  unfold connective?
  split
  · rename_i isAnd
    simp [isAnd]
  · rename_i notAnd
    split <;> simp [notAnd]

theorem connective?_eq_or_iff {token : Token} :
    connective? token = some .or ↔ token.isOperator "|" = true := by
  obtain ⟨kind, text⟩ := token
  unfold connective? Token.isOperator
  by_cases isAnd : text = "&" <;> by_cases isOr : text = "|" <;> simp_all

/-! Readers: what they read and what they leave. -/

def Reads {α : Type} {tokens : List Token} (parsed : Parsed α tokens) (value : α)
    (rest : List Token) : Prop :=
  ∃ shorter, parsed = .ok (value, ⟨rest, shorter⟩)

theorem reads_ok_iff {α : Type} {tokens : List Token} {read : α × Shorter tokens} {value : α}
    {rest : List Token} :
    Reads (.ok read : Parsed α tokens) value rest ↔ value = read.1 ∧ rest = read.2.val := by
  obtain ⟨first, after, shorter⟩ := read
  constructor
  · rintro ⟨_, same⟩
    simp only [Except.ok.injEq, Prod.mk.injEq, Subtype.mk.injEq] at same
    exact ⟨same.1.symm, same.2.symm⟩
  · rintro ⟨rfl, rfl⟩
    exact ⟨shorter, rfl⟩

theorem not_reads_error {α : Type} {tokens stuck : List Token} {value : α} {rest : List Token} :
    ¬Reads (.error stuck : Parsed α tokens) value rest := by
  rintro ⟨_, same⟩
  simp at same

def NoPlus : List Token → Prop
  | [] => True
  | token :: _ => token.isOperator "+" = false

theorem reads_operand_atom {token : Token} {more : List Token}
    (plain : ∀ other ∈ token :: more, Plain other) (noPlus : NoPlus more) {formula : Formula}
    {rest : List Token} :
    Reads (operand (token :: more)) formula rest ↔ IsAtom token formula ∧ rest = more := by
  have leaf := ofLeaf?_eq_ofAtom? (plain token (List.mem_cons_self ..))
  rw [← ofAtom?_eq_some_iff]
  cases more with
  | nil =>
      rw [operand, leaf]
      cases ofAtom? token with
      | none => simp [not_reads_error]
      | some left => simp [reads_ok_iff, eq_comm]
  | cons next tail =>
      have noRun := plusRun?_eq_none (plain next (by simp))
      have notPlus : next.isOperator "+" = false := noPlus
      rw [operand]
      simp only [leaf, noRun, notPlus]
      cases ofAtom? token with
      | none => simp [not_reads_error]
      | some left => simp [reads_ok_iff, eq_comm]

theorem reads_operand_sum {token plus : Token} {tail : List Token} (plain : Plain token)
    (isPlus : plus.isOperator "+" = true) {formula : Formula} {rest : List Token} :
    Reads (operand (token :: plus :: tail)) formula rest ↔
      ∃ left right, IsAtom token left ∧ Reads (operand tail) right rest ∧
        formula = .sum left right := by
  rw [operand]
  simp only [ofLeaf?_eq_ofAtom? plain, ← ofAtom?_eq_some_iff, isPlus, if_true]
  cases ofAtom? token with
  | none => simp [not_reads_error]
  | some left =>
      cases read : operand tail with
      | error stuck => simp [not_reads_error]
      | ok result =>
          obtain ⟨right, after, shorter⟩ := result
          simp only [reads_ok_iff, Option.some.injEq, and_assoc, exists_and_left, exists_eq_left,
            exists_eq_left']
          exact and_comm

def NoTest : List Token → Prop
  | [] => True
  | token :: _ => nullTest? token = none ∧ comparison? token = none

theorem reads_test_bare {tokens after : List Token} {left formula : Formula} {rest : List Token}
    (read : Reads (operand tokens) left after) (noTest : NoTest after) :
    Reads (test tokens) formula rest ↔ formula = left ∧ rest = after := by
  obtain ⟨shorter, read⟩ := read
  cases after with
  | nil => simp only [test, read, reads_ok_iff]
  | cons token more =>
      obtain ⟨notNull, notComparison⟩ := noTest
      simp only [test, read, notNull, notComparison, reads_ok_iff]

theorem reads_test_null {tokens after : List Token} {token : Token} {left formula : Formula}
    {negated : Bool} {rest : List Token} (read : Reads (operand tokens) left (token :: after))
    (isTest : nullTest? token = some negated) :
    Reads (test tokens) formula rest ↔
      ∃ word, after = word :: rest ∧ isMissingWord word = true ∧
        formula = .nullTest left negated := by
  obtain ⟨shorter, read⟩ := read
  cases after with
  | nil => simp [test, read, isTest, not_reads_error]
  | cons word more =>
      by_cases isMissing : isMissingWord word = true
      · simp only [test, read, isTest, isMissing, if_true, reads_ok_iff, List.cons.injEq]
        constructor
        · rintro ⟨rfl, rfl⟩
          exact ⟨word, ⟨rfl, rfl⟩, isMissing, rfl⟩
        · rintro ⟨_, ⟨_, rfl⟩, _, rfl⟩
          exact ⟨rfl, rfl⟩
      · simp [test, read, isTest, isMissing, not_reads_error]

theorem reads_test_compare {tokens after : List Token} {token : Token} {left formula : Formula}
    {comparison : Comparison} {rest : List Token}
    (read : Reads (operand tokens) left (token :: after)) (notNull : nullTest? token = none)
    (isComparison : comparison? token = some comparison) :
    Reads (test tokens) formula rest ↔
      ∃ right, Reads (operand after) right rest ∧ formula = .compare left comparison right := by
  obtain ⟨shorter, read⟩ := read
  simp only [test, read, notNull, isComparison]
  cases second : operand after with
  | error stuck => simp [not_reads_error]
  | ok result =>
      obtain ⟨right, last, further⟩ := result
      simp only [reads_ok_iff, and_assoc, exists_eq_left]
      exact and_comm

theorem reads_primary_group {opening : Token} {tokens : List Token}
    (opens : opening.kind = .openParen) {formula : Formula} {rest : List Token} :
    Reads (primary (opening :: tokens)) formula rest ↔
      ∃ inner closing, Reads (chain tokens) inner (closing :: rest) ∧
        closing.kind = .closeParen ∧ formula = .group inner.formula := by
  rw [primary]
  simp only [opens, if_true]
  cases read : chain tokens with
  | error stuck => simp [not_reads_error]
  | ok result =>
      obtain ⟨inner, after, shorter⟩ := result
      cases after with
      | nil => simp [not_reads_error, reads_ok_iff]
      | cons closing after =>
          by_cases closes : closing.kind = .closeParen
          · simp only [closes, if_true, reads_ok_iff, List.cons.injEq]
            constructor
            · rintro ⟨rfl, rfl⟩
              exact ⟨inner, closing, ⟨rfl, rfl, rfl⟩, closes, rfl⟩
            · rintro ⟨_, _, ⟨rfl, _, rfl⟩, _, rfl⟩
              exact ⟨rfl, rfl⟩
          · simp only [closes, if_false, reads_ok_iff, List.cons.injEq]
            refine iff_of_false not_reads_error ?_
            rintro ⟨_, _, ⟨_, rfl, _⟩, closing, _⟩
            exact closes closing

theorem reads_primary_test {token : Token} {more : List Token}
    (notOpen : token.kind ≠ .openParen) {formula : Formula} {rest : List Token} :
    Reads (primary (token :: more)) formula rest ↔ Reads (test (token :: more)) formula rest := by
  rw [primary]
  simp only [notOpen, if_false]

def NoConnective : List Token → Prop
  | [] => True
  | token :: _ => connective? token = none

theorem reads_chain_last {tokens after : List Token} {first : Formula} {whole : Chain}
    {rest : List Token} (read : Reads (primary tokens) first after)
    (noConnective : NoConnective after) :
    Reads (chain tokens) whole rest ↔ whole = ⟨first, []⟩ ∧ rest = after := by
  obtain ⟨shorter, read⟩ := read
  rw [chain]
  cases after with
  | nil => simp only [read, reads_ok_iff]
  | cons token more =>
      have notConnective : connective? token = none := noConnective
      simp only [read, notConnective, reads_ok_iff]

theorem reads_chain_more {tokens after : List Token} {token : Token} {first : Formula}
    {whole : Chain} {rest : List Token} {connective : Connective}
    (read : Reads (primary tokens) first (token :: after))
    (connects : connective? token = some connective) :
    Reads (chain tokens) whole rest ↔
      ∃ next, Reads (chain after) next rest ∧
        whole = ⟨first, (connective, next.first) :: next.more⟩ := by
  obtain ⟨shorter, read⟩ := read
  rw [chain]
  simp only [read, connects]
  cases second : chain after with
  | error stuck => simp [not_reads_error]
  | ok result =>
      obtain ⟨next, last, further⟩ := result
      simp only [reads_ok_iff, and_assoc, exists_eq_left]
      exact and_comm

theorem exists_reads_of_test {tokens : List Token} {formula : Formula} {rest : List Token}
    (reads : Reads (test tokens) formula rest) :
    ∃ left after, Reads (operand tokens) left after := by
  cases read : operand tokens with
  | error stuck =>
      simp only [test, read] at reads
      exact absurd reads not_reads_error
  | ok result => exact ⟨result.1, result.2.val, result.2.property, rfl⟩

theorem exists_reads_of_chain {tokens : List Token} {whole : Chain} {rest : List Token}
    (reads : Reads (chain tokens) whole rest) :
    ∃ first after, Reads (primary tokens) first after := by
  cases read : primary tokens with
  | error stuck =>
      rw [chain] at reads
      simp only [read] at reads
      exact absurd reads not_reads_error
  | ok result => exact ⟨result.1, result.2.val, result.2.property, rfl⟩

end TableSieve.Formula
