import Mathlib.Data.List.TakeWhile
import TableSieve.Proofs.Lexing
import TableSieve.Proofs.Parsing

/-!
The texts that are accepted as formulas. Identifiers without plus signs are names, and the checks
made before the grammar is tried refuse none of its formulas but the bare operands. So a text is
accepted as what its tokens derive, which is one formula.
-/

namespace TableSieve

/-! Tokens of a text. -/

theorem Token.text_ofWord (word : List Char) : (Token.ofWord word).text = String.ofList word := by
  simp only [Token.ofWord]
  split
  · rfl
  · split
    · rfl
    · split <;> rfl

theorem Token.ofLexeme_of_identifier {shape : Lexeme.Shape} {chars : List Char}
    (identifier : (Token.ofLexeme shape chars).kind = .identifier) :
    Token.ofLexeme shape chars = Token.ofWord chars := by
  cases shape with
  | word => rfl
  | date | openParen | closeParen | operator | number | other =>
      simp [Token.ofLexeme] at identifier

theorem exists_lexeme_of_mem_tokensOf {chars : List Char} {token : Token}
    (member : token ∈ tokensOf chars) :
    ∃ c rest, rest.length < chars.length ∧ token = Token.ofLexeme (Lexeme.first c rest).1
      ((c :: rest).take (rest.length + 1 - (Lexeme.first c rest).2.length)) := by
  induction chars using tokensOf.induct with
  | case1 => simp [tokensOf_nil] at member
  | case2 c rest blank ih =>
      rw [tokensOf_of_isBlank blank] at member
      obtain ⟨first, more, shorter, token⟩ := ih member
      exact ⟨first, more, Nat.lt_succ_of_lt shorter, token⟩
  | case3 c rest notBlank lexeme ih =>
      rw [tokensOf_cons (by simpa using notBlank)] at member
      rcases List.mem_cons.mp member with same | later
      · exact ⟨c, rest, Nat.lt_succ_self _, same⟩
      · obtain ⟨first, more, shorter, token⟩ := ih later
        exact ⟨first, more, Nat.lt_trans shorter (Lexeme.first_length c rest), token⟩

theorem ofWord_of_mem_tokensOf {chars : List Char} {token : Token}
    (member : token ∈ tokensOf chars) (identifier : token.kind = .identifier) :
    token.text.toList ≠ [] ∧ Token.ofWord token.text.toList = token := by
  obtain ⟨c, rest, _, rfl⟩ := exists_lexeme_of_mem_tokensOf member
  have shorter : (Lexeme.first c rest).2.length < rest.length + 1 := Lexeme.first_length c rest
  have some : (c :: rest).take (rest.length + 1 - (Lexeme.first c rest).2.length) ≠ [] := by
    intro none
    rcases List.take_eq_nil_iff.mp none with zero | empty
    · omega
    · simp at empty
  rw [Token.ofLexeme_of_identifier identifier, Token.text_ofWord, String.toList_ofList]
  exact ⟨some, rfl⟩

theorem tokensOf_of_blank {chars : List Char} (blank : ∀ c ∈ chars, Text.isBlank c = true) :
    tokensOf chars = [] := by
  rw [← List.append_nil chars, tokensOf_blank_append blank, tokensOf_nil]

theorem tokensOf_of_trimChars {chars : List Char} (empty : Text.trimChars chars = []) :
    tokensOf chars = [] := by
  refine tokensOf_of_blank (List.dropWhile_eq_nil_iff.mp ?_)
  simp only [Text.trimChars, Text.dropBlanks, List.reverse_eq_nil_iff, List.dropWhile_eq_nil_iff,
    List.mem_reverse] at empty
  cases start : chars.dropWhile Text.isBlank with
  | nil => rfl
  | cons c rest =>
      have blank : Text.isBlank c = true := empty c (by simp [start])
      have notBlank := List.head?_dropWhile_not Text.isBlank chars
      simp only [start, List.head?_cons, blank, Bool.true_eq_false] at notBlank

namespace Formula

theorem plain_of_noPlus {text : String}
    (noPlus : ∀ token ∈ tokenize text, token.kind = .identifier → '+' ∉ token.text.toList) :
    ∀ token ∈ tokenize text, Plain token := by
  intro token member identifier
  exact ⟨noPlus token member identifier, ofWord_of_mem_tokensOf member identifier⟩

/-! The checks before the grammar. -/

theorem balanced_append {tokens : List Token}
    (flat : ∀ token ∈ tokens, token.kind ≠ .openParen ∧ token.kind ≠ .closeParen)
    (depth : Nat) (rest : List Token) :
    balanced depth (tokens ++ rest) = balanced depth rest := by
  induction tokens with
  | nil => rfl
  | cons token tokens ih =>
      obtain ⟨first, later⟩ := List.forall_mem_cons.mp flat
      rw [List.cons_append, balanced]
      split
      · rename_i opens
        exact absurd opens first.1
      · rename_i closes
        exact absurd closes first.2
      · exact ih later

def IsWord (token : Token) : Prop :=
  token.kind ≠ .openParen ∧ token.kind ≠ .closeParen ∧ token.kind ≠ .operator

theorem IsAtom.isWord {token : Token} {formula : Formula} (atom : IsAtom token formula) :
    IsWord token := by
  cases atom <;> simp [IsWord]

theorem isWord_of_isMissingWord {token : Token} (isMissing : isMissingWord token = true) :
    IsWord token := by
  simp only [isMissingWord, Bool.or_eq_true, Bool.and_eq_true, decide_eq_true_eq] at isMissing
  rcases isMissing with kind | ⟨kind, _⟩ <;> simp [IsWord, kind]

theorem flat_of_isOperator {token : Token} {text : String}
    (operator : token.isOperator text = true) :
    token.kind ≠ .openParen ∧ token.kind ≠ .closeParen := by
  simp [isOperator_iff.mp operator]

theorem IsOperand.flat {tokens : List Token} {formula : Formula}
    (operand : IsOperand tokens formula) :
    ∀ token ∈ tokens, token.kind ≠ .openParen ∧ token.kind ≠ .closeParen := by
  induction operand with
  | atom atom =>
      intro token member
      rw [List.mem_singleton.mp member]
      exact ⟨atom.isWord.1, atom.isWord.2.1⟩
  | sum atom isPlus _ ih =>
      exact List.forall_mem_cons.mpr ⟨⟨atom.isWord.1, atom.isWord.2.1⟩,
        List.forall_mem_cons.mpr ⟨flat_of_isOperator isPlus, ih⟩⟩

theorem Derives.balanced {phrase : Phrase} {tokens : List Token} {formula : Formula}
    (derives : Derives phrase tokens formula) (depth : Nat) (rest : List Token) :
    Formula.balanced depth (tokens ++ rest) = Formula.balanced depth rest := by
  induction derives generalizing depth rest with
  | operand operand => exact balanced_append operand.flat depth rest
  | nullTest operand isTest isMissing =>
      have word := isWord_of_isMissingWord isMissing
      refine balanced_append (List.forall_mem_append.mpr ⟨operand.flat, ?_⟩) depth rest
      simp [flat_of_isOperator isTest, word.1, word.2.1]
  | compare left isSymbol right =>
      refine balanced_append (List.forall_mem_append.mpr ⟨left.flat, ?_⟩) depth rest
      exact List.forall_mem_cons.mpr ⟨flat_of_isOperator isSymbol, right.flat⟩
  | group opens _ closes ih =>
      rw [List.cons_append, Formula.balanced, opens, List.append_assoc]
      simp only [ih, List.singleton_append]
      simp [Formula.balanced, closes]
  | one _ ih | all _ ih => exact ih depth rest
  | @both lefts rights symbol _ _ _ joins _ leftIh rightIh
  | @either lefts rights symbol _ _ _ joins _ leftIh rightIh =>
      have flat : ∀ token ∈ [symbol], token.kind ≠ .openParen ∧ token.kind ≠ .closeParen := by
        simpa using flat_of_isOperator joins
      calc
        Formula.balanced depth (lefts ++ symbol :: rights ++ rest) =
            Formula.balanced depth (lefts ++ ([symbol] ++ (rights ++ rest))) := by simp
        _ = Formula.balanced depth ([symbol] ++ (rights ++ rest)) := leftIh depth _
        _ = Formula.balanced depth (rights ++ rest) := balanced_append flat depth _
        _ = Formula.balanced depth rest := rightIh depth rest

theorem isPredicateOperator_of_word {token : Token} (word : token.kind ≠ .operator) :
    isPredicateOperator token = false := by
  simp [isPredicateOperator, comparison?, connective?, nullTest?, Token.isOperator, word]

theorem IsOperand.not_isPredicateOperator {tokens : List Token} {formula : Formula}
    (operand : IsOperand tokens formula) : tokens.any isPredicateOperator = false := by
  induction operand with
  | atom atom => simp [isPredicateOperator_of_word atom.isWord.2.2]
  | sum atom isPlus _ ih =>
      have noPredicate : isPredicateOperator ⟨.operator, "+"⟩ = false := by decide
      rw [isOperator_iff.mp isPlus, List.any_cons, List.any_cons, ih, noPredicate,
        isPredicateOperator_of_word atom.isWord.2.2]
      rfl

theorem IsOperand.not_isPredicate {tokens : List Token} {formula : Formula}
    (operand : IsOperand tokens formula) : ∀ node ∈ formula.nodes, node.isPredicate = false := by
  have leaf : ∀ {token : Token} {formula : Formula}, IsAtom token formula →
      ∀ node ∈ formula.nodes, node.isPredicate = false := by
    intro token formula atom
    cases atom <;> simp [nodes, isPredicate]
  induction operand with
  | atom atom => exact leaf atom
  | sum atom _ _ ih =>
      exact List.forall_mem_cons.mpr ⟨rfl, List.forall_mem_append.mpr ⟨leaf atom, ih⟩⟩

theorem isPredicate_of_isRelation {node : Formula} (relation : node.isRelation = true) :
    node.isPredicate = true := by
  cases node <;> simp_all [isRelation, isPredicate]

theorem IsOperand.not_isRelation {tokens : List Token} {formula : Formula}
    (operand : IsOperand tokens formula) : formula.nodes.any isRelation = false := by
  rw [List.any_eq_false]
  intro node inside relation
  have predicate := isPredicate_of_isRelation relation
  rw [operand.not_isPredicate node inside] at predicate
  simp at predicate

theorem any_of_symbol {lefts rights : List Token} {symbol : Token}
    (predicate : isPredicateOperator symbol = true) :
    (lefts ++ symbol :: rights).any isPredicateOperator = true := by
  simp [predicate]

theorem Derives.any_isPredicateOperator {phrase : Phrase} {tokens : List Token} {formula : Formula}
    (derives : Derives phrase tokens formula) :
    tokens.any isPredicateOperator = formula.nodes.any isRelation := by
  induction derives with
  | operand operand => rw [operand.not_isPredicateOperator, operand.not_isRelation]
  | nullTest _ isTest _ =>
      have predicate := nullTest?_eq_some_iff.mpr isTest
      exact any_of_symbol (by simp [isPredicateOperator, predicate])
  | compare _ isSymbol _ =>
      have predicate := comparison?_eq_some_iff.mpr isSymbol
      exact any_of_symbol (by simp [isPredicateOperator, predicate])
  | group opens _ closes ih =>
      simp [nodes, isRelation, ih, isPredicateOperator_of_word, opens, closes]
  | one _ ih | all _ ih => exact ih
  | both _ isAnd _ _ _ =>
      have predicate := connective?_eq_and_iff.mpr isAnd
      exact any_of_symbol (by simp [isPredicateOperator, predicate])
  | either _ isOr _ _ _ =>
      have predicate := connective?_eq_or_iff.mpr isOr
      exact any_of_symbol (by simp [isPredicateOperator, predicate])

/-! Binding. -/

def isBoth : Formula → Bool
  | .both _ _ => true
  | _ => false

def isEither : Formula → Bool
  | .either _ _ => true
  | _ => false

/-- Outside of parentheses `&` joins nothing that `|` joins, and chains nest to the left. -/
def bindsTightly : Formula → Bool
  | .both left right => !left.isEither && !right.isEither && !right.isBoth
  | .either _ right => !right.isEither
  | _ => true

def Phrase.Admits (phrase : Phrase) (formula : Formula) : Prop :=
  match phrase with
  | .primary => formula.isEither = false ∧ formula.isBoth = false
  | .conjunction => formula.isEither = false
  | .disjunction => True

theorem admits_of_value {formula : Formula} (value : formula.isPredicate = false) :
    Phrase.Admits .primary formula ∧ formula.bindsTightly = true := by
  cases formula <;> simp_all [Phrase.Admits, isPredicate, isEither, isBoth, bindsTightly]

theorem IsOperand.bindsTightly {tokens : List Token} {formula : Formula}
    (operand : IsOperand tokens formula) : ∀ node ∈ formula.nodes, node.bindsTightly = true :=
  fun node inside => (admits_of_value (operand.not_isPredicate node inside)).2

theorem Derives.bindsTightly {phrase : Phrase} {tokens : List Token} {formula : Formula}
    (derives : Derives phrase tokens formula) :
    phrase.Admits formula ∧ ∀ node ∈ formula.nodes, node.bindsTightly = true := by
  induction derives with
  | @operand tokens formula operand =>
      have value := operand.not_isPredicate formula (self_mem_nodes formula)
      exact ⟨(admits_of_value value).1, operand.bindsTightly⟩
  | nullTest operand _ _ =>
      exact ⟨⟨rfl, rfl⟩, List.forall_mem_cons.mpr ⟨rfl, operand.bindsTightly⟩⟩
  | compare left _ right =>
      exact ⟨⟨rfl, rfl⟩, List.forall_mem_cons.mpr
        ⟨rfl, List.forall_mem_append.mpr ⟨left.bindsTightly, right.bindsTightly⟩⟩⟩
  | group _ _ _ ih => exact ⟨⟨rfl, rfl⟩, List.forall_mem_cons.mpr ⟨rfl, ih.2⟩⟩
  | one _ ih => exact ⟨ih.1.1, ih.2⟩
  | all _ ih => exact ⟨trivial, ih.2⟩
  | @both _ _ _ left right _ _ _ leftIh rightIh =>
      obtain ⟨leftNotEither, leftNodes⟩ := leftIh
      obtain ⟨⟨rightNotEither, rightNotBoth⟩, rightNodes⟩ := rightIh
      have leftAdmitted : left.isEither = false := leftNotEither
      refine ⟨rfl, List.forall_mem_cons.mpr
        ⟨?_, List.forall_mem_append.mpr ⟨leftNodes, rightNodes⟩⟩⟩
      simp [Formula.bindsTightly, leftAdmitted, rightNotEither, rightNotBoth]
  | @either _ _ _ left right _ _ _ leftIh rightIh =>
      have rightAdmitted : right.isEither = false := rightIh.1
      refine ⟨trivial, List.forall_mem_cons.mpr
        ⟨?_, List.forall_mem_append.mpr ⟨leftIh.2, rightIh.2⟩⟩⟩
      simp [Formula.bindsTightly, rightAdmitted]

/-! Texts. -/

theorem Derives.ne_nil {phrase : Phrase} {tokens : List Token} {formula : Formula}
    (derives : Derives phrase tokens formula) : tokens ≠ [] := by
  induction derives with
  | operand operand => cases operand <;> simp
  | one _ ih | all _ ih => exact ih
  | nullTest | compare | group | both | either => simp

theorem Derives.unique {tokens : List Token} (plain : ∀ token ∈ tokens, Plain token)
    {formula other : Formula} (derives : Derives .disjunction tokens formula)
    (derivesOther : Derives .disjunction tokens other) : other = formula := by
  have parsed := ofTokens_complete plain derives
  rw [ofTokens_complete plain derivesOther] at parsed
  exact Except.ok.inj parsed

theorem parse_eq_ofTokens_of_checks {text : String} {tokens : List Token}
    (lexes : tokenize text = tokens) (notBlank : (Text.trimChars text.toList).isEmpty = false)
    (isBalanced : balanced 0 tokens = true) (predicate : tokens.any isPredicateOperator = true) :
    parse text = ofTokens tokens := by
  simp [parse, notBlank, lexes, isBalanced, predicate]

theorem parse_eq_ofTokens {text : String} {formula : Formula} :
    parse text = .ok formula ↔
      (Text.trimChars text.toList).isEmpty = false ∧ balanced 0 (tokenize text) = true ∧
        (tokenize text).any isPredicateOperator = true ∧
          ofTokens (tokenize text) = .ok formula := by
  unfold parse
  dsimp only
  cases (Text.trimChars text.toList).isEmpty <;> cases balanced 0 (tokenize text) <;>
    cases (tokenize text).any isPredicateOperator <;> simp

theorem parse_of_derives {text : String} {formula : Formula}
    (plain : ∀ token ∈ tokenize text, Plain token)
    (derives : Derives .disjunction (tokenize text) formula)
    (relation : ∃ node ∈ formula.nodes, node.isRelation = true) : parse text = .ok formula := by
  have notBlank : (Text.trimChars text.toList).isEmpty = false := by
    cases empty : (Text.trimChars text.toList).isEmpty with
    | false => rfl
    | true => exact absurd (tokensOf_of_trimChars (List.isEmpty_iff.mp empty)) derives.ne_nil
  have isBalanced : balanced 0 (tokenize text) = true := by
    have same := derives.balanced 0 []
    rw [List.append_nil] at same
    rw [same]
    rfl
  have predicate : (tokenize text).any isPredicateOperator = true := by
    rw [derives.any_isPredicateOperator]
    exact List.any_eq_true.mpr relation
  exact parse_eq_ofTokens.mpr ⟨notBlank, isBalanced, predicate, ofTokens_complete plain derives⟩

/-- A text whose identifiers have no plus signs is accepted exactly as the formula that its tokens
derive, unless that is a bare operand. There is one such formula, in which `&` binds tighter
than `|`. -/
theorem parse_eq_ok_iff {text : String}
    (noPlus : ∀ token ∈ tokenize text, token.kind = .identifier → '+' ∉ token.text.toList)
    (formula : Formula) :
    (parse text = .ok formula ↔
      Derives .disjunction (tokenize text) formula ∧
        ∃ node ∈ formula.nodes, node.isRelation = true) ∧
    (parse text = .ok formula →
      (∀ other, Derives .disjunction (tokenize text) other → other = formula) ∧
        ∀ node ∈ formula.nodes, node.bindsTightly = true) := by
  have plain := plain_of_noPlus noPlus
  have sound : parse text = .ok formula → Derives .disjunction (tokenize text) formula :=
    fun parsed => ofTokens_sound plain (parse_eq_ofTokens.mp parsed).2.2.2
  refine ⟨⟨?_, ?_⟩, ?_⟩
  · intro parsed
    have predicate := (parse_eq_ofTokens.mp parsed).2.2.1
    rw [(sound parsed).any_isPredicateOperator] at predicate
    exact ⟨sound parsed, List.any_eq_true.mp predicate⟩
  · rintro ⟨derives, relation⟩
    exact parse_of_derives plain derives relation
  · intro parsed
    have derives := sound parsed
    exact ⟨fun other => derives.unique plain, derives.bindsTightly.2⟩

theorem parse_eq_ok_iff_precedence :
    (∀ token ∈ tokenize "a > 1 | b IS NA & c < d",
      token.kind = .identifier → '+' ∉ token.text.toList) ∧
    parse "a > 1 | b IS NA & c < d" =
      .ok (.either (.compare (.field "a") .greater (.literal (.int 1)))
        (.both (.nullTest (.field "b") false) (.compare (.field "c") .less (.field "d")))) := by
  have noPlus : ∀ token ∈ tokenize "a > 1 | b IS NA & c < d",
      token.kind = .identifier → '+' ∉ token.text.toList := by
    decide +kernel
  have tokens : tokenize "a > 1 | b IS NA & c < d" =
      ([⟨.identifier, "a"⟩] ++ ⟨.operator, ">"⟩ :: [⟨.number, "1"⟩]) ++ ⟨.operator, "|"⟩ ::
        (([⟨.identifier, "b"⟩] ++ [⟨.operator, "IS"⟩, ⟨.identifier, "NA"⟩]) ++ ⟨.operator, "&"⟩ ::
          ([⟨.identifier, "c"⟩] ++ ⟨.operator, "<"⟩ :: [⟨.identifier, "d"⟩])) := by
    decide +kernel
  have compared : Derives .primary ([⟨.identifier, "a"⟩] ++ ⟨.operator, ">"⟩ :: [⟨.number, "1"⟩])
      (.compare (.field "a") .greater (.literal (.int 1))) :=
    .compare (.atom .field) (by decide) (.atom (.int (by decide)))
  have tested : Derives .primary
      ([⟨.identifier, "b"⟩] ++ [⟨.operator, "IS"⟩, ⟨.identifier, "NA"⟩])
      (.nullTest (.field "b") false) :=
    .nullTest (.atom .field) (by decide) (by decide)
  have ordered : Derives .primary
      ([⟨.identifier, "c"⟩] ++ ⟨.operator, "<"⟩ :: [⟨.identifier, "d"⟩])
      (.compare (.field "c") .less (.field "d")) :=
    .compare (.atom .field) (by decide) (.atom .field)
  refine ⟨noPlus, (parse_eq_ok_iff noPlus _).1.mpr ⟨?_, _, self_mem_nodes _, rfl⟩⟩
  rw [tokens]
  exact .either (.all (.one compared)) (by decide) (.both (.one tested) (by decide) ordered)

end Formula

end TableSieve
