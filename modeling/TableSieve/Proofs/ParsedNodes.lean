import TableSieve.Proofs.Lists
import TableSieve.Proofs.WrittenTokens

/-!
The nodes of a formula that was read. Whatever the text, what takes values takes them from
operands, `&` binds tighter than `|`, a name has no plus sign, and a date has its digits and
hyphens. Sums nest to the right but where a name with plus signs inside comes first.
-/

namespace TableSieve.Formula

open TableSieve.Text

def FitsLeaf : Formula → Prop
  | .field name => '+' ∉ name.toList
  | .literal (.date text) => IsDateText text.toList
  | _ => True

structure Grammatical (node : Formula) : Prop where
  leaf : node.FitsLeaf
  values : ∀ operand ∈ node.operands, operand.isPredicate = false
  tight : node.bindsTightly = true

structure IsValue (formula : Formula) : Prop where
  value : formula.isPredicate = false
  nodes : ∀ node ∈ formula.nodes, node.Grammatical

/-! Operands. -/

theorem isValue_field {name : String} (noPlus : '+' ∉ name.toList) : IsValue (.field name) := by
  refine ⟨rfl, ?_⟩
  intro node inside
  rw [List.mem_singleton.mp inside]
  exact ⟨noPlus, by simp [operands], rfl⟩

theorem isValue_literal {value : Literal} (fits : FitsLeaf (.literal value)) :
    IsValue (.literal value) := by
  refine ⟨rfl, ?_⟩
  intro node inside
  rw [List.mem_singleton.mp inside]
  exact ⟨fits, by simp [operands], rfl⟩

theorem IsValue.sum {left right : Formula} (leftValue : IsValue left) (rightValue : IsValue right) :
    IsValue (.sum left right) := by
  have root : Grammatical (.sum left right) := by
    refine ⟨trivial, ?_, rfl⟩
    simp [operands, leftValue.value, rightValue.value]
  exact ⟨rfl, List.forall_mem_cons.mpr
    ⟨root, List.forall_mem_append.mpr ⟨leftValue.nodes, rightValue.nodes⟩⟩⟩

def Dated (token : Token) : Prop :=
  token.kind = .date → ∃ raw, IsDateText raw ∧ token.text = String.ofList (dateChars raw)

theorem isValue_of_ofAtom? {token : Token} {formula : Formula}
    (found : ofAtom? token = some formula) (dated : Dated token)
    (name : token.kind = .identifier → '+' ∉ token.text.toList) : IsValue formula := by
  cases ofAtom?_eq_some_iff.mp found with
  | field => exact isValue_field (name rfl)
  | missing | int _ | float _ _ => exact isValue_literal trivial
  | @date text raw shape =>
      obtain ⟨written, isDate, same⟩ := dated rfl
      dsimp only at same
      rw [same, String.toList_ofList, dateChars] at shape
      have rawEq : written = raw := by simpa using shape
      refine isValue_literal ?_
      rw [FitsLeaf, String.toList_ofList, ← rawEq]
      exact isDate

theorem not_mem_of_mem_split {separator : Char} {chars : List Char} :
    ∀ piece ∈ split separator chars, separator ∉ piece := by
  induction chars with
  | nil => simp [split]
  | cons c rest ih =>
      rw [split]
      by_cases same : c = separator
      · rw [if_pos same]
        exact List.forall_mem_cons.mpr ⟨by simp, ih⟩
      · rw [if_neg same]
        cases pieces : split separator rest with
        | nil => simp [Ne.symm same]
        | cons piece more =>
            rw [pieces] at ih
            obtain ⟨first, others⟩ := List.forall_mem_cons.mp ih
            refine List.forall_mem_cons.mpr ⟨?_, others⟩
            simp [Ne.symm same, first]

theorem isValue_of_sumOf? {operands : List Formula} {formula : Formula}
    (values : ∀ operand ∈ operands, IsValue operand) (found : sumOf? operands = some formula) :
    IsValue formula := by
  induction operands generalizing formula with
  | nil => simp [sumOf?] at found
  | cons first rest ih =>
      obtain ⟨firstValue, restValues⟩ := List.forall_mem_cons.mp values
      cases rest with
      | nil =>
          rw [sumOf?, Option.some.injEq] at found
          exact found ▸ firstValue
      | cons next more =>
          rw [sumOf?, Option.map_eq_some_iff] at found
          obtain ⟨others, sum, rfl⟩ := found
          exact firstValue.sum (ih restValues sum)
          all_goals simp

theorem kind_ofWord_of_isNumberWord {word : List Char} (number : isNumberWord word = true) :
    (Token.ofWord word).kind ≠ .identifier := by
  simp only [Token.ofWord]
  split
  · simp
  · split
    · simp
    · simp

theorem dated_ofWord (word : List Char) : Dated (Token.ofWord word) :=
  fun date => absurd date (Token.kind_ofWord_ne_date word)

theorem isValue_of_ofRun? {run : List Char} {formula : Formula}
    (found : ofRun? run = some formula) : IsValue formula := by
  rw [ofRun?] at found
  split at found
  · rename_i number
    exact isValue_of_ofAtom? found (dated_ofWord run)
      fun identifier => absurd identifier (kind_ofWord_of_isNumberWord number)
  · dsimp only at found
    split at found
    · cases found
    · obtain ⟨parts, read, sum⟩ := Option.bind_eq_some_iff.mp found
      refine isValue_of_sumOf? ?_ sum
      intro operand member
      have listed : some operand ∈ parts.map some := List.mem_map_of_mem member
      rw [← mapM_eq_some_iff.mp read] at listed
      obtain ⟨piece, isPiece, atom⟩ := List.mem_map.mp listed
      refine isValue_of_ofAtom? atom (dated_ofWord piece) fun _ => ?_
      rw [Token.text_ofWord, String.toList_ofList]
      exact not_mem_of_mem_split piece isPiece

theorem isValue_of_ofLeaf? {token : Token} {formula : Formula} (dated : Dated token)
    (found : ofLeaf? token = some formula) : IsValue formula := by
  rw [ofLeaf?] at found
  split at found
  · exact isValue_of_ofRun? found
  · rename_i kind
    exact isValue_of_ofAtom? found dated fun identifier => by simp [kind] at identifier
  · rename_i kind
    exact isValue_of_ofAtom? found dated fun identifier => by simp [kind] at identifier
  · rename_i kind
    exact isValue_of_ofAtom? found dated fun identifier => by simp [kind] at identifier
  · cases found
  · cases found
  · cases found

/-- An operand begins with a leaf. A plus sign may follow, by itself before an operand or at the
front of a word. -/
theorem reads_operand {tokens : List Token} {formula : Formula} {rest : List Token}
    (reads : Reads (operand tokens) formula rest) :
    ∃ token more left, tokens = token :: more ∧ ofLeaf? token = some left ∧
      ((formula = left ∧ rest = more) ∨
        (∃ plus tail right, more = plus :: tail ∧ plus.isOperator "+" = true ∧
          Reads (operand tail) right rest ∧ formula = .sum left right) ∨
        ∃ next run right, more = next :: rest ∧ plusRun? next = some run ∧
          ofRun? run = some right ∧ formula = .sum left right) := by
  match tokens with
  | [] =>
      rw [operand] at reads
      exact absurd reads not_reads_error
  | [token] =>
      rw [operand] at reads
      cases leaf : ofLeaf? token with
      | none =>
          simp only [leaf] at reads
          exact absurd reads not_reads_error
      | some left =>
          simp only [leaf] at reads
          exact ⟨token, [], left, rfl, leaf, .inl (reads_ok_iff.mp reads)⟩
  | token :: next :: tail =>
      rw [operand] at reads
      cases leaf : ofLeaf? token with
      | none =>
          simp only [leaf] at reads
          exact absurd reads not_reads_error
      | some left =>
          refine ⟨token, next :: tail, left, rfl, leaf, ?_⟩
          simp only [leaf] at reads
          split at reads
          · rename_i isPlus
            cases second : operand tail with
            | error stuck =>
                simp only [second] at reads
                exact absurd reads not_reads_error
            | ok result =>
                obtain ⟨right, after, shorter⟩ := result
                simp only [second] at reads
                obtain ⟨rfl, rfl⟩ := reads_ok_iff.mp reads
                exact .inr (.inl ⟨next, tail, right, rfl, isPlus, ⟨shorter, second⟩, rfl⟩)
          · cases joined : plusRun? next with
            | none =>
                simp only [joined] at reads
                exact .inl (reads_ok_iff.mp reads)
            | some run =>
                cases value : ofRun? run with
                | none =>
                    simp only [joined, value] at reads
                    exact absurd reads not_reads_error
                | some right =>
                    simp only [joined, value] at reads
                    obtain ⟨rfl, rfl⟩ := reads_ok_iff.mp reads
                    exact .inr (.inr ⟨next, run, right, rfl, joined, value, rfl⟩)

theorem kind_of_ofLeaf? {token : Token} {formula : Formula}
    (found : ofLeaf? token = some formula) : token.kind ≠ .operator := by
  intro operator
  simp [ofLeaf?, operator] at found

theorem kind_of_plusRun? {token : Token} {run : List Char} (found : plusRun? token = some run) :
    token.kind ≠ .operator := by
  intro operator
  simp [plusRun?, operator] at found

def MakesValue (tokens : List Token) (formula : Formula) : Prop :=
  tokens.any isPredicateOperator = false ∧ IsValue formula

theorem operandsSound_dated : OperandsSound Dated MakesValue := by
  intro tokens
  -- A sum goes on with an operand of the tokens behind its plus sign.
  induction size : tokens.length using Nat.strongRecOn generalizing tokens with
  | ind _ shorter =>
      intro allDated formula rest reads
      obtain ⟨token, more, left, rfl, leaf, next⟩ := reads_operand reads
      obtain ⟨dated, moreDated⟩ := List.forall_mem_cons.mp allDated
      have noOperator := isPredicateOperator_of_word (kind_of_ofLeaf? leaf)
      have leftValue := isValue_of_ofLeaf? dated leaf
      rcases next with ⟨rfl, rfl⟩ | ⟨plus, tail, right, rfl, isPlus, rightReads, rfl⟩ |
        ⟨next, run, right, rfl, joined, value, rfl⟩
      · exact ⟨[token], rfl, by simp [noOperator], leftValue⟩
      · obtain ⟨used, rfl, noneUsed, rightValue⟩ := shorter tail.length
          (by simp only [← size, List.length_cons]; omega) tail rfl
          (fun other member => moreDated other (List.mem_cons_of_mem plus member)) right rest
          rightReads
        have plusOperator : isPredicateOperator ⟨.operator, "+"⟩ = false := by decide
        rw [← isOperator_iff.mp isPlus] at plusOperator
        refine ⟨token :: plus :: used, rfl, ?_, leftValue.sum rightValue⟩
        simp [noOperator, plusOperator, noneUsed]
      · have nextOperator := isPredicateOperator_of_word (kind_of_plusRun? joined)
        refine ⟨[token, next], rfl, ?_, leftValue.sum (isValue_of_ofRun? value)⟩
        simp [noOperator, nextOperator]

/-! Phrases. -/

structure MakesPhrase (phrase : Phrase) (tokens : List Token) (formula : Formula) : Prop where
  admits : phrase.Admits formula
  nodes : ∀ node ∈ formula.nodes, node.Grammatical
  relation : tokens.any isPredicateOperator = true → formula.nodes.any isRelation = true

theorem any_isRelation_of_root {formula : Formula} (root : formula.isRelation = true) :
    formula.nodes.any isRelation = true :=
  List.any_eq_true.mpr ⟨formula, self_mem_nodes formula, root⟩

theorem productions_makesPhrase : Productions MakesValue MakesPhrase where
  operand := by
    rintro tokens formula ⟨noOperator, value⟩
    refine ⟨(admits_of_value value.value).1, value.nodes, ?_⟩
    simp [noOperator]
  nullTest := by
    rintro tokens test word formula negated ⟨_, value⟩ _ _
    refine ⟨⟨rfl, rfl⟩, List.forall_mem_cons.mpr ⟨⟨trivial, ?_, rfl⟩, value.nodes⟩,
      fun _ => any_isRelation_of_root rfl⟩
    simp [operands, value.value]
  compare := by
    rintro lefts rights symbol left right comparison ⟨_, leftValue⟩ _ ⟨_, rightValue⟩
    refine ⟨⟨rfl, rfl⟩, List.forall_mem_cons.mpr ⟨⟨trivial, ?_, rfl⟩, ?_⟩,
      fun _ => any_isRelation_of_root rfl⟩
    · simp [operands, leftValue.value, rightValue.value]
    · exact List.forall_mem_append.mpr ⟨leftValue.nodes, rightValue.nodes⟩
  group := by
    intro opening closing tokens formula opens inner closes
    refine ⟨⟨rfl, rfl⟩, List.forall_mem_cons.mpr ⟨⟨trivial, by simp [operands], rfl⟩, inner.nodes⟩,
      ?_⟩
    intro predicate
    have inside : tokens.any isPredicateOperator = true := by
      simpa [isPredicateOperator_of_word, opens, closes] using predicate
    simp [nodes, isRelation, inner.relation inside]
  one := by
    intro tokens formula primary
    exact ⟨primary.admits.1, primary.nodes, primary.relation⟩
  both := by
    intro lefts rights symbol left right leftHolds _ rightHolds
    have leftNotEither : left.isEither = false := leftHolds.admits
    have tight : (Formula.both left right).bindsTightly = true := by
      simp [Formula.bindsTightly, leftNotEither, rightHolds.admits.1, rightHolds.admits.2]
    exact ⟨rfl, List.forall_mem_cons.mpr ⟨⟨trivial, by simp [operands], tight⟩,
      List.forall_mem_append.mpr ⟨leftHolds.nodes, rightHolds.nodes⟩⟩,
      fun _ => any_isRelation_of_root rfl⟩
  all := by
    intro tokens formula conjunction
    exact ⟨trivial, conjunction.nodes, conjunction.relation⟩
  either := by
    intro lefts rights symbol left right leftHolds _ rightHolds
    have rightNotEither : right.isEither = false := rightHolds.admits
    have tight : (Formula.either left right).bindsTightly = true := by
      simp [Formula.bindsTightly, rightNotEither]
    exact ⟨trivial, List.forall_mem_cons.mpr ⟨⟨trivial, by simp [operands], tight⟩,
      List.forall_mem_append.mpr ⟨leftHolds.nodes, rightHolds.nodes⟩⟩,
      fun _ => any_isRelation_of_root rfl⟩

/-- Whatever the text, a formula that was read of it has grammatical nodes and a relation. -/
theorem grammatical_of_parse {text : String} {formula : Formula}
    (parsed : parse text = .ok formula) :
    (∀ node ∈ formula.nodes, node.Grammatical) ∧
      ∃ node ∈ formula.nodes, node.isRelation = true := by
  obtain ⟨_, _, predicate, ofTokens⟩ := parse_eq_ofTokens.mp parsed
  have dated : ∀ token ∈ tokenize text, Dated token :=
    fun token member => isDateText_of_mem_tokensOf member
  have phrase := holds_of_ofTokens productions_makesPhrase operandsSound_dated dated ofTokens
  exact ⟨phrase.nodes, List.any_eq_true.mp (phrase.relation predicate)⟩

end TableSieve.Formula
