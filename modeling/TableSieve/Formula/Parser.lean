import TableSieve.Formula.Token

/-!
Reading formulas.

    disjunction := conjunction ('|' conjunction)*
    conjunction := primary ('&' primary)*
    primary := '(' disjunction ')' | operand [('IS' | 'IS NOT') NA | comparison operand]
    operand := atom | atom '+' operand

Chains of `|` and `&` fold to the left and sums nest to the right. A field name may carry plus
signs inside (`a+b`) or in front (`a +b`), which are sums as well. A parser that is stuck reports
the tokens from the offending one on; none left means that the formula ends too early.
-/

namespace TableSieve

open TableSieve.Number TableSieve.Text

inductive FormulaError
  | empty
  | unbalancedParens
  | missingOperator
  | unexpectedToken (token : String) (position : Nat)
  | unexpectedEnd
  | trailingInput (token : String)
  deriving DecidableEq

def FormulaError.message : FormulaError → String
  | .empty => "expression is empty"
  | .unbalancedParens => "unbalanced parentheses"
  | .missingOperator => "no comparison, null-test or logical operator found"
  | .unexpectedToken token position =>
    s!"unexpected token '{token}' at position {natText position}"
  | .unexpectedEnd => "unexpected end of expression"
  | .trailingInput token => s!"unexpected trailing input starting at '{token}'"

namespace Formula

def ofNumber? (chars : List Char) : Option Formula :=
  match readInt64? chars with
  | some value => some (.literal (.int value))
  | none => (readFloat? chars).map fun value => .literal (.float value)

def ofAtom? (token : Token) : Option Formula :=
  match token.kind with
  | .identifier => some (.field token.text)
  | .missing => some (.literal .missing)
  | .number => ofNumber? token.text.toList
  | .date =>
    ((after? ['D', 'A', 'T', 'E'] token.text.toList).bind (between? '(' ')')).map fun chars =>
      .literal (.date (String.ofList chars))
  | .operator | .openParen | .closeParen => none

def sumOf? : List Formula → Option Formula
  | [] => none
  | [last] => some last
  | first :: rest => (sumOf? rest).map (.sum first)

def ofRun? (run : List Char) : Option Formula :=
  if isNumberWord run then ofAtom? (Token.ofWord run)
  else
    let parts := split '+' run
    if parts.any List.isEmpty then none
    else (parts.mapM fun part => ofAtom? (Token.ofWord part)).bind sumOf?

def ofLeaf? (token : Token) : Option Formula :=
  match token.kind with
  | .identifier => ofRun? token.text.toList
  | .number | .date | .missing => ofAtom? token
  | .operator | .openParen | .closeParen => none

def plusRun? (token : Token) : Option (List Char) :=
  if token.kind = .identifier then after? ['+'] token.text.toList else none

abbrev Shorter (tokens : List Token) := { rest : List Token // rest.length < tokens.length }

/-- What a parser read and the tokens after it, or the tokens from the offending one on. -/
abbrev Parsed (α : Type) (tokens : List Token) := Except (List Token) (α × Shorter tokens)

def operand : (tokens : List Token) → Parsed Formula tokens
  | [] => .error []
  | [token] =>
    match ofLeaf? token with
    | none => .error [token]
    | some left => .ok (left, ⟨[], by simp⟩)
  | token :: next :: rest =>
    match ofLeaf? token with
    | none => .error (token :: next :: rest)
    | some left =>
      if next.isOperator "+" then
        match operand rest with
        | .error stuck => .error stuck
        | .ok (right, ⟨after, shorter⟩) =>
          .ok (.sum left right, ⟨after, by simp only [List.length_cons]; omega⟩)
      else
        match plusRun? next with
        | none => .ok (left, ⟨next :: rest, by simp⟩)
        | some run =>
          match ofRun? run with
          | none => .error (next :: rest)
          | some right => .ok (.sum left right, ⟨rest, by simp only [List.length_cons]; omega⟩)

def nullTest? (token : Token) : Option Bool :=
  if token.isOperator "IS NOT" then some true
  else if token.isOperator "IS" then some false
  else none

def comparison? (token : Token) : Option Comparison :=
  if token.kind = .operator then Comparison.ofSymbol? token.text else none

def isMissingWord (token : Token) : Bool :=
  token.kind = .missing || (token.kind = .identifier && token.text == "NA")

def test (tokens : List Token) : Parsed Formula tokens :=
  match operand tokens with
  | .error stuck => .error stuck
  | .ok (left, ⟨[], shorter⟩) => .ok (left, ⟨[], shorter⟩)
  | .ok (left, ⟨token :: rest, shorter⟩) =>
    match nullTest? token with
    | some negated =>
      match rest with
      | [] => .error []
      | word :: after =>
        if isMissingWord word then
          .ok (.nullTest left negated, ⟨after, by simp only [List.length_cons] at shorter; omega⟩)
        else .error (word :: after)
    | none =>
      match comparison? token with
      | none => .ok (left, ⟨token :: rest, shorter⟩)
      | some comparison =>
        match operand rest with
        | .error stuck => .error stuck
        | .ok (right, ⟨after, further⟩) =>
          .ok (.compare left comparison right,
            ⟨after, by simp only [List.length_cons] at shorter; omega⟩)

inductive Connective
  | and
  | or
  deriving DecidableEq

def connective? (token : Token) : Option Connective :=
  if token.isOperator "&" then some .and
  else if token.isOperator "|" then some .or
  else none

structure Chain where
  first : Formula
  more : List (Connective × Formula)

/-- `&` binds tighter than `|`, and both associate to the left. -/
def assemble (done : Option Formula) (current : Formula) : List (Connective × Formula) → Formula
  | [] => (done.map (.either · current)).getD current
  | (.and, next) :: more => assemble done (.both current next) more
  | (.or, next) :: more => assemble (some ((done.map (.either · current)).getD current)) next more

def Chain.formula (chain : Chain) : Formula :=
  assemble none chain.first chain.more

mutual

def primary (tokens : List Token) : Parsed Formula tokens :=
  match tokens with
  | [] => .error []
  | token :: rest =>
    if token.kind = .openParen then
      match chain rest with
      | .error stuck => .error stuck
      | .ok (inner, ⟨[], _⟩) => .error []
      | .ok (inner, ⟨close :: after, shorter⟩) =>
        if close.kind = .closeParen then
          .ok (.group inner.formula,
            ⟨after, by simp only [List.length_cons] at shorter ⊢; omega⟩)
        else .error (close :: after)
    else test (token :: rest)
termination_by (tokens.length, 0)

def chain (tokens : List Token) : Parsed Chain tokens :=
  match primary tokens with
  | .error stuck => .error stuck
  | .ok (first, ⟨[], shorter⟩) => .ok (⟨first, []⟩, ⟨[], shorter⟩)
  | .ok (first, ⟨token :: rest, shorter⟩) =>
    match connective? token with
    | none => .ok (⟨first, []⟩, ⟨token :: rest, shorter⟩)
    | some connective =>
      match chain rest with
      | .error stuck => .error stuck
      | .ok (next, ⟨after, further⟩) =>
        .ok (⟨first, (connective, next.first) :: next.more⟩,
          ⟨after, by simp only [List.length_cons] at shorter; omega⟩)
termination_by (tokens.length, 1)
decreasing_by
  · exact Prod.Lex.right _ (by omega)
  · exact Prod.Lex.left _ _ (by simp only [List.length_cons] at shorter; omega)

end

def stuckError (tokens : List Token) : List Token → FormulaError
  | [] => .unexpectedEnd
  | token :: rest => .unexpectedToken token.text (tokens.length - (token :: rest).length)

def ofTokens (tokens : List Token) : Except FormulaError Formula :=
  match chain tokens with
  | .error stuck => .error (stuckError tokens stuck)
  | .ok (whole, ⟨[], _⟩) => .ok whole.formula
  | .ok (_, ⟨token :: _, _⟩) => .error (.trailingInput token.text)

def balanced (depth : Nat) : List Token → Bool
  | [] => depth = 0
  | token :: rest =>
    match token.kind with
    | .openParen => balanced (depth + 1) rest
    | .closeParen => 0 < depth && balanced (depth - 1) rest
    | _ => balanced depth rest

def isPredicateOperator (token : Token) : Bool :=
  (comparison? token).isSome || (connective? token).isSome || (nullTest? token).isSome

/-- Reads a formula. Empty text, unbalanced parentheses and the lack of any operator that makes a
predicate are reported before the grammar is tried. -/
def parse (text : String) : Except FormulaError Formula :=
  if (trimChars text.toList).isEmpty then .error .empty
  else
    let tokens := tokenize text
    if !balanced 0 tokens then .error .unbalancedParens
    else if !tokens.any isPredicateOperator then .error .missingOperator
    else ofTokens tokens

end Formula

end TableSieve
