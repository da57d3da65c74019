import TableSieve.Proofs.ParsedNodes

/-!
Writing what was read. The text of a formula is read as the formula with its sums nested to the
right, for a sum is written without parentheses. A name that is no token by itself and a float
that is not finite are written as something else.
-/

namespace TableSieve

open TableSieve.Number TableSieve.Text

def Literal.kind : Literal → TokenKind
  | .int _ | .float _ => .number
  | .date _ => .date
  | .missing => .missing

namespace Formula

def written : Formula → List Token
  | .field name => [⟨.identifier, name⟩]
  | .literal value => [⟨value.kind, value.text⟩]
  | .sum left right => left.written ++ ⟨.operator, "+"⟩ :: right.written
  | .compare left comparison right =>
    left.written ++ ⟨.operator, comparison.symbol⟩ :: right.written
  | .nullTest operand negated =>
    operand.written ++ [⟨.operator, nullTestWords negated⟩, ⟨.missing, missingWord⟩]
  | .both left right => left.written ++ ⟨.operator, "&"⟩ :: right.written
  | .either left right => left.written ++ ⟨.operator, "|"⟩ :: right.written
  | .group inner => ⟨.openParen, "("⟩ :: (inner.written ++ [⟨.closeParen, ")"⟩])

/-- A leaf whose text is one token of its kind. -/
def Legible : Formula → Prop
  | .field name => tokenize name = [⟨.identifier, name⟩]
  | .literal (.float value) => isFinite value = true
  | _ => True

instance (node : Formula) : Decidable node.Legible :=
  match node with
  | .field name => inferInstanceAs (Decidable (tokenize name = [⟨.identifier, name⟩]))
  | .literal (.float value) => inferInstanceAs (Decidable (isFinite value = true))
  | .literal (.int _) | .literal (.date _) | .literal .missing | .sum _ _ | .compare _ _ _
  | .nullTest _ _ | .both _ _ | .either _ _ | .group _ => inferInstanceAs (Decidable True)

/-! Sums. -/

def isSum : Formula → Bool
  | .sum _ _ => true
  | _ => false

/-- A sum whose left side is none. -/
def nestsRight : Formula → Bool
  | .sum left _ => !left.isSum
  | _ => true

def plus : Formula → Formula → Formula
  | .sum first more, right => .sum first (more.plus right)
  | left, right => .sum left right

def nested : Formula → Formula
  | .field name => .field name
  | .literal value => .literal value
  | .sum left right => left.nested.plus right.nested
  | .compare left comparison right => .compare left.nested comparison right.nested
  | .nullTest operand negated => .nullTest operand.nested negated
  | .both left right => .both left.nested right.nested
  | .either left right => .either left.nested right.nested
  | .group inner => .group inner.nested

theorem plus_of_not_isSum {left : Formula} (notSum : left.isSum = false) (right : Formula) :
    left.plus right = .sum left right := by
  cases left with
  | sum _ _ => cases notSum
  | _ => rfl

def NestsRight (formula : Formula) : Prop :=
  ∀ node ∈ formula.nodes, node.nestsRight = true

theorem nestsRight_sum_iff {left right : Formula} :
    NestsRight (.sum left right) ↔
      left.isSum = false ∧ NestsRight left ∧ NestsRight right := by
  simp only [NestsRight, nodes, List.forall_mem_cons, List.forall_mem_append, nestsRight,
    Bool.not_eq_true']

theorem NestsRight.plus {left right : Formula} (leftNests : NestsRight left)
    (rightNests : NestsRight right) : NestsRight (left.plus right) := by
  induction left with
  | sum first more _ ih =>
      obtain ⟨notSum, firstNests, moreNests⟩ := nestsRight_sum_iff.mp leftNests
      exact nestsRight_sum_iff.mpr ⟨notSum, firstNests, ih moreNests⟩
  | _ => exact nestsRight_sum_iff.mpr ⟨rfl, leftNests, rightNests⟩

theorem nestsRight_nested (formula : Formula) : NestsRight formula.nested := by
  induction formula with
  | field name => exact List.forall_mem_singleton.mpr rfl
  | literal value => exact List.forall_mem_singleton.mpr rfl
  | sum left right leftIh rightIh => exact leftIh.plus rightIh
  | compare left _ right leftIh rightIh | both left right leftIh rightIh
  | either left right leftIh rightIh =>
      exact List.forall_mem_cons.mpr ⟨rfl, List.forall_mem_append.mpr ⟨leftIh, rightIh⟩⟩
  | nullTest operand _ ih | group operand ih => exact List.forall_mem_cons.mpr ⟨rfl, ih⟩

theorem nested_of_nestsRight {formula : Formula} (nests : NestsRight formula) :
    formula.nested = formula := by
  induction formula with
  | field name => rfl
  | literal value => rfl
  | sum left right leftIh rightIh =>
      obtain ⟨notSum, leftNests, rightNests⟩ := nestsRight_sum_iff.mp nests
      rw [nested, leftIh leftNests, rightIh rightNests, plus_of_not_isSum notSum]
  | compare left _ right leftIh rightIh | both left right leftIh rightIh
  | either left right leftIh rightIh =>
      obtain ⟨leftNests, rightNests⟩ := List.forall_mem_append.mp (List.forall_mem_cons.mp nests).2
      rw [nested, leftIh leftNests, rightIh rightNests]
  | nullTest operand _ ih | group operand ih =>
      rw [nested, ih (List.forall_mem_cons.mp nests).2]

theorem nested_eq_self_iff {formula : Formula} : formula.nested = formula ↔ NestsRight formula := by
  constructor
  · intro same
    rw [← same]
    exact nestsRight_nested formula
  · exact nested_of_nestsRight

/-! Text. -/

def Printable (formula : Formula) : Prop :=
  ∀ node ∈ formula.nodes, node.Grammatical ∧ node.Legible

theorem Printable.root {formula : Formula} (printable : Printable formula) :
    formula.Grammatical ∧ formula.Legible :=
  printable formula (self_mem_nodes formula)

theorem Printable.sides {formula left right : Formula} (printable : Printable formula)
    (nodes : formula.nodes = formula :: (left.nodes ++ right.nodes)) :
    Printable left ∧ Printable right := by
  rw [Printable, nodes] at printable
  exact List.forall_mem_append.mp (List.forall_mem_cons.mp printable).2

theorem Printable.inner {formula inner : Formula} (printable : Printable formula)
    (nodes : formula.nodes = formula :: inner.nodes) : Printable inner := by
  rw [Printable, nodes] at printable
  exact (List.forall_mem_cons.mp printable).2

theorem toList_date (text : String) :
    (Literal.date text).text.toList = dateChars text.toList := by
  have whole : (Literal.date text).text = "DATE(" ++ text ++ ")" := rfl
  rw [whole, String.toList_append, String.toList_append, dateChars, List.append_assoc]
  rfl

theorem lexes_literal {value : Literal} (printable : Printable (.literal value)) :
    Lexes value.text.toList [⟨value.kind, value.text⟩] := by
  obtain ⟨grammatical, legible⟩ := printable.root
  cases value with
  | int value =>
      have lexes := lexes_int value.toInt
      rwa [← String.toList_ofList (l := intChars value.toInt)] at lexes
  | float value =>
      have lexes := lexes_float legible Layout.literal
      rwa [← String.toList_ofList (l := Layout.literal.chars value)] at lexes
  | date text =>
      have lexes := lexes_date grammatical.leaf
      rwa [← toList_date, String.ofList_toList] at lexes
  | missing => exact lexes_missing

theorem lexes_joined {left right symbol : List Char} {lefts rights : List Token} {token : Token}
    (leftLexes : Lexes left lefts) (symbolLexes : Lexes symbol [token])
    (rightLexes : Lexes right rights) :
    Lexes (left ++ ' ' :: (symbol ++ ' ' :: right)) (lefts ++ token :: rights) :=
  leftLexes.spaced (symbolLexes.spaced rightLexes)

theorem Printable.lexes {formula : Formula} (printable : Printable formula) :
    Lexes formula.text.toList formula.written := by
  induction formula with
  | field name => exact lexes_name printable.root.2
  | literal value => exact lexes_literal printable
  | sum left right leftIh rightIh =>
      obtain ⟨leftPrintable, rightPrintable⟩ := printable.sides rfl
      have lexes := lexes_joined (leftIh leftPrintable) lexes_plus (rightIh rightPrintable)
      simpa [text, written] using lexes
  | compare left comparison right leftIh rightIh =>
      obtain ⟨leftPrintable, rightPrintable⟩ := printable.sides rfl
      have lexes := lexes_joined (leftIh leftPrintable) (lexes_comparison comparison)
        (rightIh rightPrintable)
      simpa [text, written] using lexes
  | nullTest operand negated ih =>
      have lexes := (ih (printable.inner rfl)).spaced (lexes_nullTest negated)
      simpa [text, written] using lexes
  | both left right leftIh rightIh =>
      obtain ⟨leftPrintable, rightPrintable⟩ := printable.sides rfl
      have lexes := lexes_joined (leftIh leftPrintable) lexes_and (rightIh rightPrintable)
      simpa [text, written] using lexes
  | either left right leftIh rightIh =>
      obtain ⟨leftPrintable, rightPrintable⟩ := printable.sides rfl
      have lexes := lexes_joined (leftIh leftPrintable) lexes_or (rightIh rightPrintable)
      simpa [text, written] using lexes
  | group inner ih =>
      have lexes := (ih (printable.inner rfl)).parenthesized
      simpa [text, written] using lexes

/-! Grammar. -/

theorem isAtom_literal {value : Literal} (legible : Legible (.literal value)) :
    IsAtom ⟨value.kind, value.text⟩ (.literal value) := by
  cases value with
  | int value =>
      refine .int ?_
      rw [Literal.text, intText, String.toList_ofList]
      exact readInt64?_intChars value
  | float value =>
      refine .float ?_ ?_
      · rw [Literal.text, Layout.text, String.toList_ofList]
        exact readInt64?_literal legible
      · rw [Literal.text, Layout.text, String.toList_ofList]
        exact Layout.literal.readFloat?_chars legible
  | date text =>
      have atom : IsAtom ⟨.date, (Literal.date text).text⟩
          (.literal (.date (String.ofList text.toList))) := .date (toList_date text)
      rwa [String.ofList_toList] at atom
  | missing => exact .missing

theorem IsOperand.plus {lefts rights : List Token} {symbol : Token} {left right : Formula}
    (leftOperand : IsOperand lefts left) (isPlus : symbol.isOperator "+" = true)
    (rightOperand : IsOperand rights right) :
    IsOperand (lefts ++ symbol :: rights) (left.plus right) := by
  -- The operand on the right goes behind the last atom of the one on the left.
  induction leftOperand with
  | @atom token formula atom =>
      have notSum : formula.isSum = false := by cases atom <;> rfl
      rw [plus_of_not_isSum notSum]
      exact .sum atom isPlus rightOperand
  | sum atom firstPlus _ ih => exact .sum atom firstPlus ih

theorem Printable.isOperand {formula : Formula} (printable : Printable formula)
    (value : formula.isPredicate = false) : IsOperand formula.written formula.nested := by
  induction formula with
  | field name => exact .atom .field
  | literal value => exact .atom (isAtom_literal printable.root.2)
  | sum left right leftIh rightIh =>
      obtain ⟨leftPrintable, rightPrintable⟩ := printable.sides rfl
      have values := printable.root.1.values
      exact (leftIh leftPrintable (values left (by simp [operands]))).plus (by decide)
        (rightIh rightPrintable (values right (by simp [operands])))
  | compare | nullTest | both | either | group => cases value

theorem Derives.of_primary {tokens : List Token} {formula : Formula} (phrase : Phrase)
    (derives : Derives .primary tokens formula) : Derives phrase tokens formula := by
  cases phrase with
  | primary => exact derives
  | conjunction => exact .one derives
  | disjunction => exact .all (.one derives)

theorem Printable.derives {formula : Formula} (printable : Printable formula) {phrase : Phrase}
    (admits : phrase.Admits formula) : Derives phrase formula.written formula.nested := by
  -- A production asks for its sides as phrases of their own, so the phrase is general.
  induction formula generalizing phrase with
  | field | literal | sum => exact .of_primary phrase (.operand (printable.isOperand rfl))
  | compare left comparison right _ _ =>
      obtain ⟨leftPrintable, rightPrintable⟩ := printable.sides rfl
      have values := printable.root.1.values
      have leftOperand := leftPrintable.isOperand (values left (by simp [operands]))
      have rightOperand := rightPrintable.isOperand (values right (by simp [operands]))
      exact .of_primary phrase (.compare leftOperand (by simp [Token.isOperator]) rightOperand)
  | nullTest operand negated _ =>
      have value := printable.root.1.values operand (by simp [operands])
      have isOperand := (printable.inner rfl).isOperand value
      refine .of_primary phrase (.nullTest isOperand ?_ (by decide))
      cases negated <;> decide
  | both left right leftIh rightIh =>
      obtain ⟨leftPrintable, rightPrintable⟩ := printable.sides rfl
      have tight := printable.root.1.tight
      simp only [Formula.bindsTightly, Bool.and_eq_true, Bool.not_eq_true'] at tight
      obtain ⟨⟨leftAdmitted, notEither⟩, notBoth⟩ := tight
      have conjunction : Derives .conjunction (Formula.both left right).written
          (Formula.both left right).nested :=
        .both (leftIh leftPrintable leftAdmitted) (by decide)
          (rightIh rightPrintable ⟨notEither, notBoth⟩)
      cases phrase with
      | primary => cases admits.2
      | conjunction => exact conjunction
      | disjunction => exact .all conjunction
  | either left right leftIh rightIh =>
      obtain ⟨leftPrintable, rightPrintable⟩ := printable.sides rfl
      have tight := printable.root.1.tight
      simp only [Formula.bindsTightly, Bool.not_eq_true'] at tight
      cases phrase with
      | primary => cases admits.1
      | conjunction => cases admits
      | disjunction =>
          exact .either (leftIh leftPrintable trivial) (by decide) (rightIh rightPrintable tight)
  | group inner ih =>
      exact .of_primary phrase (.group rfl (ih (printable.inner rfl) trivial) rfl)

theorem Printable.noPlus {formula : Formula} (printable : Printable formula) :
    ∀ token ∈ formula.written, token.kind = .identifier → '+' ∉ token.text.toList := by
  have operator : ∀ text : String, (⟨.operator, text⟩ : Token).kind = .identifier →
      '+' ∉ text.toList := by
    intro text identifier
    cases identifier
  induction formula with
  | field name =>
      intro token member _
      rw [List.mem_singleton.mp member]
      exact printable.root.1.leaf
  | literal value =>
      intro token member identifier
      rw [List.mem_singleton.mp member] at identifier
      cases value <;> cases identifier
  | sum left right leftIh rightIh | compare left _ right leftIh rightIh
  | both left right leftIh rightIh | either left right leftIh rightIh =>
      obtain ⟨leftPrintable, rightPrintable⟩ := printable.sides rfl
      exact List.forall_mem_append.mpr ⟨leftIh leftPrintable,
        List.forall_mem_cons.mpr ⟨operator _, rightIh rightPrintable⟩⟩
  | nullTest operand _ ih =>
      refine List.forall_mem_append.mpr ⟨ih (printable.inner rfl), ?_⟩
      simp
  | group inner ih =>
      refine List.forall_mem_cons.mpr ⟨by simp, List.forall_mem_append.mpr ⟨?_, by simp⟩⟩
      exact ih (printable.inner rfl)

theorem any_isRelation_plus (left right : Formula) :
    (left.plus right).nodes.any isRelation =
      (left.nodes.any isRelation || right.nodes.any isRelation) := by
  induction left with
  | sum first more _ ih => simp [plus, nodes, isRelation, ih, Bool.or_assoc]
  | _ => simp [plus, nodes, isRelation]

theorem any_isRelation_nested (formula : Formula) :
    formula.nested.nodes.any isRelation = formula.nodes.any isRelation := by
  induction formula with
  | sum left right leftIh rightIh =>
      simp [nested, any_isRelation_plus, nodes, isRelation, leftIh, rightIh]
  | group inner ih => simp [nested, nodes, isRelation, ih]
  | _ => simp [nested, nodes, isRelation]

/-- What was read of a text, if its names are tokens and its floats finite, is read of its own text
but for the nesting of sums. So it is read back as it is exactly if all its sums nest to the
right. -/
theorem parse_text_of_parse {text : String} {formula : Formula} (parsed : parse text = .ok formula)
    (legible : ∀ node ∈ formula.nodes, node.Legible) :
    parse formula.text = .ok formula.nested ∧
      (parse formula.text = .ok formula ↔ ∀ node ∈ formula.nodes, node.nestsRight = true) := by
  obtain ⟨grammatical, node, inside, relation⟩ := grammatical_of_parse parsed
  have printable : Printable formula :=
    fun node inside => ⟨grammatical node inside, legible node inside⟩
  have tokens := printable.lexes.tokenize_eq
  have readBack : parse formula.text = .ok formula.nested := by
    refine parse_of_derives (plain_of_noPlus ?_) ?_ ?_
    · rw [tokens]
      exact printable.noPlus
    · rw [tokens]
      exact printable.derives trivial
    · have some := List.any_eq_true.mpr ⟨node, inside, relation⟩
      rw [← any_isRelation_nested] at some
      exact List.any_eq_true.mp some
  refine ⟨readBack, ?_⟩
  rw [readBack, Except.ok.injEq]
  exact nested_eq_self_iff

theorem parse_text_of_parse_left_nested :
    let formula : Formula :=
      .both
        (.compare (.sum (.sum (.field "a") (.field "b")) (.field "c")) .greater
          (.literal (.float (.ofBits 0x4004000000000000))))
        (.compare (.literal (.date "2024-02-29")) .lessEqual (.field "d"))
    parse "a+b + c > 2.50 & DATE( 2024-02-29 ) <= d" = .ok formula ∧
      (∀ node ∈ formula.nodes, node.Legible) ∧
      parse formula.text = .ok formula.nested ∧ parse formula.text ≠ .ok formula := by
  intro formula
  have tokens : tokenize "a+b + c > 2.50 & DATE( 2024-02-29 ) <= d" =
      [⟨.identifier, "a+b"⟩, ⟨.operator, "+"⟩, ⟨.identifier, "c"⟩, ⟨.operator, ">"⟩,
        ⟨.number, "2.50"⟩, ⟨.operator, "&"⟩, ⟨.date, "DATE(2024-02-29)"⟩, ⟨.operator, "<="⟩,
        ⟨.identifier, "d"⟩] := by
    decide +kernel
  have sum : Reads (operand [⟨.identifier, "a+b"⟩, ⟨.operator, "+"⟩, ⟨.identifier, "c"⟩,
      ⟨.operator, ">"⟩, ⟨.number, "2.50"⟩, ⟨.operator, "&"⟩, ⟨.date, "DATE(2024-02-29)"⟩,
      ⟨.operator, "<="⟩, ⟨.identifier, "d"⟩])
      (.sum (.sum (.field "a") (.field "b")) (.field "c"))
      [⟨.operator, ">"⟩, ⟨.number, "2.50"⟩, ⟨.operator, "&"⟩, ⟨.date, "DATE(2024-02-29)"⟩,
        ⟨.operator, "<="⟩, ⟨.identifier, "d"⟩] :=
    ⟨by decide, by decide +kernel⟩
  have number : Reads (operand [⟨.number, "2.50"⟩, ⟨.operator, "&"⟩,
      ⟨.date, "DATE(2024-02-29)"⟩, ⟨.operator, "<="⟩, ⟨.identifier, "d"⟩])
      (.literal (.float (.ofBits 0x4004000000000000)))
      [⟨.operator, "&"⟩, ⟨.date, "DATE(2024-02-29)"⟩, ⟨.operator, "<="⟩, ⟨.identifier, "d"⟩] :=
    ⟨by decide, by decide +kernel⟩
  have date : Reads (operand [⟨.date, "DATE(2024-02-29)"⟩, ⟨.operator, "<="⟩, ⟨.identifier, "d"⟩])
      (.literal (.date "2024-02-29")) [⟨.operator, "<="⟩, ⟨.identifier, "d"⟩] :=
    ⟨by decide, by decide +kernel⟩
  have name : Reads (operand [⟨.identifier, "d"⟩]) (.field "d") [] :=
    ⟨by decide, by decide +kernel⟩
  have first := (reads_primary_test (by decide)).mpr
    ((reads_test_compare sum (by decide) (by decide : _ = some .greater)).mpr ⟨_, number, rfl⟩)
  have second := (reads_primary_test (by decide)).mpr
    ((reads_test_compare date (by decide) (by decide : _ = some .lessEqual)).mpr ⟨_, name, rfl⟩)
  have whole := (reads_chain_more first (by decide : _ = some .and)).mpr
    ⟨_, (reads_chain_last second trivial).mpr ⟨rfl, rfl⟩, rfl⟩
  have parsed : parse "a+b + c > 2.50 & DATE( 2024-02-29 ) <= d" = .ok formula := by
    rw [parse_eq_ofTokens, tokens]
    exact ⟨by decide +kernel, by decide +kernel, by decide +kernel,
      ofTokens_eq_ok_iff.mpr ⟨_, whole, rfl⟩⟩
  have legible : ∀ node ∈ formula.nodes, node.Legible := by decide +kernel
  obtain ⟨readBack, unchanged⟩ := parse_text_of_parse parsed legible
  refine ⟨parsed, legible, readBack, ?_⟩
  rw [ne_eq, unchanged]
  decide +kernel

/-- A plus sign inside a name makes a sum that nests to the left, and its text does not show it. -/
theorem parse_text_ne_of_left_sum :
    ∃ text formula, parse text = .ok formula ∧ parse formula.text ≠ .ok formula := by
  have tokens : tokenize "a+b + c > 0" =
      [⟨.identifier, "a+b"⟩, ⟨.operator, "+"⟩, ⟨.identifier, "c"⟩, ⟨.operator, ">"⟩,
        ⟨.number, "0"⟩] := by
    decide +kernel
  have readTokens : tokenize "a + b + c > 0" =
      [⟨.identifier, "a"⟩, ⟨.operator, "+"⟩, ⟨.identifier, "b"⟩, ⟨.operator, "+"⟩,
        ⟨.identifier, "c"⟩, ⟨.operator, ">"⟩, ⟨.number, "0"⟩] := by
    decide +kernel
  have parsed : parse "a+b + c > 0" = .ok (.compare
      (.sum (.sum (.field "a") (.field "b")) (.field "c")) .greater (.literal (.int 0))) := by
    rw [parse_eq_ofTokens, tokens]
    refine ⟨by decide +kernel, by decide +kernel, by decide +kernel, ?_⟩
    cbv
  have readBack : parse "a + b + c > 0" = .ok (.compare
      (.sum (.field "a") (.sum (.field "b") (.field "c"))) .greater (.literal (.int 0))) := by
    rw [parse_eq_ofTokens, readTokens]
    refine ⟨by decide +kernel, by decide +kernel, by decide +kernel, ?_⟩
    cbv
  have text : Formula.text (.compare (.sum (.sum (.field "a") (.field "b")) (.field "c")) .greater
      (.literal (.int 0))) = "a + b + c > 0" := by
    decide +kernel
  refine ⟨_, _, parsed, ?_⟩
  rw [text, readBack]
  decide

end Formula

end TableSieve
