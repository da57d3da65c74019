import TableSieve.Proofs.Runs

/-!
Texts of operands. A text before ` > 0` is an operand if all of its tokens are read as one, and the
text of a summand adds a value to whatever operand stands in front of it. Texts with white space
between them make longer ones, and a run is a text of either kind.
-/

namespace TableSieve.Formula

open TableSieve.Lexeme (isWordPart)
open TableSieve.Text

/-! Tokens before a comparison. -/

structure Inert (token : Token) : Prop where
  notOpen : token.kind ≠ .openParen
  notClose : token.kind ≠ .closeParen
  noPredicate : isPredicateOperator token = false

theorem inert_of_kind {token : Token} (kind : token.kind = .identifier ∨ token.kind = .number) :
    Inert token := by
  have notOperator : token.kind ≠ .operator := by rcases kind with kind | kind <;> simp [kind]
  refine ⟨?_, ?_, isPredicateOperator_of_word notOperator⟩
  · rcases kind with kind | kind <;> simp [kind]
  · rcases kind with kind | kind <;> simp [kind]

theorem inert_plus : Inert ⟨.operator, "+"⟩ :=
  ⟨by decide, by decide, by decide⟩

def ending : List Token :=
  [⟨.operator, ">"⟩, ⟨.number, "0"⟩]

def Whole (tokens : List Token) (value : Formula) : Prop :=
  Reads (operand (tokens ++ ending)) value ending

theorem not_whole_of_ofLeaf? {token : Token} (unread : ofLeaf? token = none) (more : List Token)
    (value : Formula) : ¬Whole (token :: more) value := by
  intro whole
  obtain ⟨_, _, left, same, leaf, _⟩ := reads_operand whole
  obtain ⟨rfl, _⟩ := List.cons.inj same
  rw [unread] at leaf
  cases leaf

section Leaf

variable {token : Token} {left : Formula} (leaf : ofLeaf? token = some left)

include leaf

theorem whole_last {value : Formula} : Whole [token] value ↔ left = value := by
  have notPlus : (⟨.operator, ">"⟩ : Token).isOperator "+" = false := by decide
  have noRun : plusRun? ⟨.operator, ">"⟩ = none := by decide
  rw [Whole, ending, List.cons_append, List.nil_append, operand]
  simp only [leaf, notPlus, noRun, Bool.false_eq_true, if_false, reads_ok_iff, and_true]
  exact eq_comm

theorem whole_plus {tokens : List Token} {value : Formula} :
    Whole (token :: ⟨.operator, "+"⟩ :: tokens) value ↔
      ∃ right, Whole tokens right ∧ value = .sum left right := by
  have isPlus : (⟨.operator, "+"⟩ : Token).isOperator "+" = true := by decide
  rw [Whole, List.cons_append, List.cons_append, operand]
  simp only [leaf, isPlus, if_true]
  cases read : operand (tokens ++ ending) with
  | error stuck => simp [Whole, read, not_reads_error]
  | ok result =>
      obtain ⟨right, after, shorter⟩ := result
      simp only [Whole, read, reads_ok_iff, and_assoc, exists_eq_left]
      exact and_comm

theorem whole_led {next : Token} {run : List Char} (led : plusRun? next = some run)
    {rest : List Token} {value : Formula} :
    Whole (token :: next :: rest) value ↔
      rest = [] ∧ ∃ right, ofRun? run = some right ∧ value = .sum left right := by
  have notPlus : next.isOperator "+" = false := by
    simp [Token.isOperator, kind_of_plusRun? led]
  rw [Whole, List.cons_append, List.cons_append, operand]
  simp only [leaf, notPlus, led, Bool.false_eq_true, if_false]
  cases ofRun? run with
  | none => simp [not_reads_error]
  | some right =>
      have nothing : ending = rest ++ ending ↔ rest = [] := by simp
      simp only [reads_ok_iff, nothing, Option.some.injEq, exists_eq_left']
      exact and_comm

end Leaf

def aboveZero (value : Formula) : Formula :=
  .compare value .greater (.literal (.int 0))

theorem reads_zero : Reads (operand [⟨.number, "0"⟩]) (.literal (.int 0)) [] :=
  ⟨by decide, by decide +kernel⟩

section Comparison

variable {tokens : List Token} (inert : ∀ token ∈ tokens, Inert token)

include inert

theorem reads_primary_ending {formula : Formula} {rest : List Token} :
    Reads (primary (tokens ++ ending)) formula rest ↔
      Reads (test (tokens ++ ending)) formula rest := by
  have notOpen : ∀ token ∈ tokens ++ ending, token.kind ≠ .openParen :=
    List.forall_mem_append.mpr ⟨fun token member => (inert token member).notOpen, by simp [ending]⟩
  obtain ⟨first, more, split⟩ : ∃ first more, tokens ++ ending = first :: more :=
    List.exists_cons_of_ne_nil (by simp [ending])
  rw [split] at notOpen ⊢
  exact reads_primary_test (notOpen first (List.mem_cons_self ..))

/-- Nothing goes on with an operand that ends before the comparison, so then a token is left. -/
theorem exists_whole_of_reads (dated : ∀ token ∈ tokens ++ ending, Dated token)
    {whole : Chain} (reads : Reads (chain (tokens ++ ending)) whole []) :
    ∃ value, Whole tokens value := by
  obtain ⟨first, after, primaryReads⟩ := exists_reads_of_chain reads
  obtain ⟨left, rest, leftReads⟩ :=
    exists_reads_of_test ((reads_primary_ending inert).mp primaryReads)
  obtain ⟨used, same, noPredicate, _⟩ := operandsSound_dated _ dated _ _ leftReads
  rcases List.append_eq_append_iff.mp same with ⟨beyond, rfl, split⟩ | ⟨more, rfl, rfl⟩
  · cases beyond with
    | nil =>
        rw [List.nil_append] at split
        subst split
        exact ⟨left, leftReads⟩
    | cons token beyond =>
        have isComparison : isPredicateOperator ⟨.operator, ">"⟩ = true := by decide
        obtain ⟨rfl, _⟩ := List.cons.inj split
        simp [isComparison] at noPredicate
  · cases more with
    | nil => exact ⟨left, leftReads⟩
    | cons token more =>
        have idle := (inert token (by simp)).noPredicate
        simp only [isPredicateOperator, Bool.or_eq_false_iff, Option.isSome_eq_false_iff,
          Option.isNone_iff_eq_none] at idle
        obtain ⟨⟨noComparison, noConnective⟩, noTest⟩ := idle
        have bare := (reads_primary_ending inert).mpr
          ((reads_test_bare leftReads ⟨noTest, noComparison⟩).mpr ⟨rfl, rfl⟩)
        have left := ((reads_chain_last bare noConnective).mp reads).2
        cases left

theorem ofTokens_eq_ok_iff_whole (dated : ∀ token ∈ tokens ++ ending, Dated token)
    {formula : Formula} :
    ofTokens (tokens ++ ending) = .ok formula ↔
      ∃ value, Whole tokens value ∧ formula = aboveZero value := by
  have compared : ∀ {value}, Whole tokens value →
      Reads (primary (tokens ++ ending)) (aboveZero value) [] := by
    intro value whole
    exact (reads_primary_ending inert).mpr
      ((reads_test_compare whole (by decide) (by decide : _ = some .greater)).mpr
        ⟨_, reads_zero, rfl⟩)
  rw [ofTokens_eq_ok_iff]
  constructor
  · rintro ⟨chain, reads, rfl⟩
    obtain ⟨value, whole⟩ := exists_whole_of_reads inert dated reads
    obtain ⟨rfl, _⟩ := (reads_chain_last (compared whole) trivial).mp reads
    exact ⟨value, whole, rfl⟩
  · rintro ⟨value, whole, rfl⟩
    exact ⟨_, (reads_chain_last (compared whole) trivial).mpr ⟨rfl, rfl⟩, rfl⟩

end Comparison

/-! Texts of operands. -/

structure Spells (chars : List Char) (tokens : List Token) : Prop where
  lexes : Lexes chars tokens
  inert : ∀ token ∈ tokens, Inert token
  some : tokens ≠ []

def EndsBefore (chars : List Char) (tokens : List Token) (c : Char) : Prop :=
  ∀ rest, tokensOf (chars ++ c :: rest) = tokens ++ tokensOf (c :: rest)

theorem Spells.append {chars : List Char} {tokens : List Token} (spells : Spells chars tokens)
    {gap : List Char} (blank : ∀ c ∈ gap, isBlank c = true) {c : Char} {next : List Char}
    {more : List Token} (nextSpells : Spells (c :: next) more)
    (ends : gap = [] → EndsBefore chars tokens c) :
    Spells (chars ++ (gap ++ c :: next)) (tokens ++ more) := by
  refine ⟨?_, List.forall_mem_append.mpr ⟨spells.inert, nextSpells.inert⟩, by simp [spells.some]⟩
  by_cases none : gap = []
  · subst none
    intro rest breaks
    rw [List.nil_append, List.append_assoc, List.cons_append, ends rfl, ← List.cons_append,
      nextSpells.lexes rest breaks, List.append_assoc]
  · exact spells.lexes.apart none blank nextSpells.lexes

theorem spells_plus : Spells ['+'] [⟨.operator, "+"⟩] :=
  ⟨lexes_plus, List.forall_mem_singleton.mpr inert_plus, by simp⟩

/-- Before ` > 0` the text is read as an operand of the value, if it has one. -/
def IsOperandText (chars : List Char) (value : Option Formula) : Prop :=
  ∃ tokens, Spells chars tokens ∧ ∀ whole, Whole tokens whole ↔ value = some whole

/-- The text goes on with an operand by adding the value to it, if it has one. -/
def IsSummandText (chars : List Char) (value : Option Formula) : Prop :=
  ∃ tokens, Spells chars tokens ∧ ∀ token left, ofLeaf? token = some left →
    ∀ whole, Whole (token :: tokens) whole ↔ value.map (.sum left) = some whole

theorem IsOperandText.parse_iff {chars : List Char} {value : Option Formula}
    (isText : IsOperandText chars value) {formula : Formula} :
    parse (String.ofList (chars ++ [' ', '>', ' ', '0'])) = .ok formula ↔
      value.map aboveZero = some formula := by
  obtain ⟨tokens, spells, whole⟩ := isText
  have zero : Lexes ('0' :: []) [⟨.number, "0"⟩] := lexes_word (by decide +kernel)
  have lexes : tokenize (String.ofList (chars ++ [' ', '>', ' ', '0'])) = tokens ++ ending := by
    refine Lexes.tokenize_eq ?_
    rw [String.toList_ofList]
    exact spells.lexes.spaced ((lexes_comparison .greater).spaced zero)
  have dated : ∀ token ∈ tokens ++ ending, Dated token := by
    rw [← lexes]
    exact fun token member => isDateText_of_mem_tokensOf member
  have notBlank : (trimChars (String.ofList (chars ++ [' ', '>', ' ', '0'])).toList).isEmpty =
      false := by
    rw [List.isEmpty_eq_false_iff]
    intro blank
    have nothing := tokensOf_of_trimChars blank
    rw [← tokenize, lexes] at nothing
    simp [ending] at nothing
  have flat : ∀ token ∈ tokens, token.kind ≠ .openParen ∧ token.kind ≠ .closeParen :=
    fun token member => ⟨(spells.inert token member).notOpen, (spells.inert token member).notClose⟩
  have isComparison : isPredicateOperator ⟨.operator, ">"⟩ = true := by decide
  rw [parse_eq_ofTokens, lexes, balanced_append flat]
  simp only [notBlank, ofTokens_eq_ok_iff_whole spells.inert dated, whole]
  simp [ending, isComparison, balanced, Option.map_eq_some_iff, eq_comm]

section Texts

variable {chars next gap : List Char} {token : Token} {left : Formula} {value : Option Formula}

theorem isOperandText_of_leaf (spells : Spells chars [token]) (leaf : ofLeaf? token = some left) :
    IsOperandText chars (some left) := by
  refine ⟨[token], spells, fun whole => ?_⟩
  rw [whole_last leaf, Option.some.injEq]

theorem isOperandText_none {more : List Token} (spells : Spells chars (token :: more))
    (unread : ofLeaf? token = none) : IsOperandText chars none :=
  ⟨token :: more, spells, fun whole =>
    iff_of_false (not_whole_of_ofLeaf? unread more whole) (by simp)⟩

theorem isOperandText_plus {tokens : List Token}
    (whole : ∀ right, Whole tokens right ↔ value = some right) (leaf : ofLeaf? token = some left)
    (spells : Spells chars (token :: ⟨.operator, "+"⟩ :: tokens)) :
    IsOperandText chars (value.map (.sum left)) := by
  refine ⟨_, spells, fun sum => ?_⟩
  simp only [whole_plus leaf, whole, Option.map_eq_some_iff, eq_comm (a := sum)]

theorem isSummandText_of_led {run : List Char} (spells : Spells chars [token])
    (led : plusRun? token = some run) : IsSummandText chars (ofRun? run) := by
  refine ⟨[token], spells, fun left value leaf whole => ?_⟩
  simp only [whole_led leaf led, true_and, Option.map_eq_some_iff, eq_comm (a := whole)]

theorem isSummandText_none {run : List Char} {more : List Token}
    (spells : Spells chars (token :: more)) (led : plusRun? token = some run) (some : more ≠ []) :
    IsSummandText chars none := by
  refine ⟨token :: more, spells, fun left value leaf whole => ?_⟩
  simp [whole_led leaf led, some]

end Texts

/-! Runs. -/

theorem IsName.spells {word : List Char} (isName : IsName word) :
    Spells word [⟨.identifier, String.ofList word⟩] :=
  ⟨isName.lexes, List.forall_mem_singleton.mpr (inert_of_kind (.inl rfl)), by simp⟩

theorem IsName.endsBefore {word : List Char} (isName : IsName word) {c : Char}
    (stop : isWordPart c = false) :
    EndsBefore word [⟨.identifier, String.ofList word⟩] c :=
  fun rest => isName (c :: rest) stop

theorem Term.spells (term : Term) : Spells term.chars [term.token] :=
  ⟨term.lexes, List.forall_mem_singleton.mpr (inert_of_kind term.kind), by simp⟩

theorem ofLeaf?_identifier (word : List Char) :
    ofLeaf? ⟨.identifier, String.ofList word⟩ = ofRun? word := by
  rw [ofLeaf?, String.toList_ofList]

theorem plusRun?_identifier (run : List Char) :
    plusRun? ⟨.identifier, String.ofList ('+' :: run)⟩ = some run := by
  simp [plusRun?, String.toList_ofList, after?]

structure IsRun (front : List Term) (last : Term) : Prop where
  starts : ∀ term ∈ front.head?, term.StartsWord
  inside : ∀ term ∈ front, term.InWord
  last : front ≠ [] → last.InWord

theorem isRun_single (term : Term) : IsRun [] term :=
  ⟨by simp, by simp, by simp⟩

theorem IsRun.joined {front : List Term} {last : Term} (isRun : IsRun front last)
    (starts : front = [] → last.StartsWord) :
    (∀ term ∈ (front ++ [last]).head?, term.StartsWord) ∧
      ∀ term ∈ front ++ [last], term.InWord := by
  have lastInside : last.InWord := by
    by_cases single : front = []
    · exact (starts single).inWord
    · exact isRun.last single
  refine ⟨?_, List.forall_mem_append.mpr ⟨isRun.inside, by simpa using lastInside⟩⟩
  cases front with
  | nil => simpa using starts rfl
  | cons first more => exact isRun.starts

theorem IsRun.exists_token {front : List Term} {last : Term} (isRun : IsRun front last) :
    ∃ token, Spells (prefixed front ++ last.chars) [token] ∧
      ofLeaf? token = some (addOnto front last.value) ∧
        (front = [] → last.endsToken = true →
          EndsBefore (prefixed front ++ last.chars) [token] '+') := by
  by_cases single : front = []
  · subst single
    exact ⟨last.token, last.spells, last.ofLeaf?, fun _ ends => last.tokensOf_plus ends⟩
  · have inside := isRun.last single
    refine ⟨_, (isName_prefixed isRun.inside isRun.starts single inside.isWordPart).spells, ?_,
      fun nothing => absurd nothing single⟩
    rw [ofLeaf?_identifier, ofRun?_addOnto isRun.inside inside]

end TableSieve.Formula
