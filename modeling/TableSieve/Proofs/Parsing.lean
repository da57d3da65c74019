import TableSieve.Proofs.Grammar

/-!
Parsing against the grammar. What the parser reads is derived from the tokens that it read, and what
the tokens derive is read where nothing follows that could go on with it. The checks made before
refuse no derivable formula but the bare operands.
-/

namespace TableSieve.Formula

/-! Soundness. -/

theorem operand_sound {tokens : List Token} (plain : ∀ token ∈ tokens, Plain token)
    {formula : Formula} {rest : List Token} (reads : Reads (operand tokens) formula rest) :
    ∃ used, tokens = used ++ rest ∧ IsOperand used formula := by
  induction size : tokens.length using Nat.strongRecOn generalizing tokens formula with
  | ind _ shorter =>
      cases tokens with
      | nil =>
          rw [operand] at reads
          exact absurd reads not_reads_error
      | cons token more =>
          by_cases noPlus : NoPlus more
          · obtain ⟨atom, rfl⟩ := (reads_operand_atom plain noPlus).mp reads
            exact ⟨[token], rfl, .atom atom⟩
          · cases more with
            | nil => exact absurd trivial noPlus
            | cons plus tail =>
                have isPlus : plus.isOperator "+" = true := by simpa [NoPlus] using noPlus
                have plainToken := plain token (List.mem_cons_self ..)
                obtain ⟨left, right, atom, rightReads, rfl⟩ :=
                  (reads_operand_sum plainToken isPlus).mp reads
                have plainTail : ∀ other ∈ tail, Plain other :=
                  fun other member => plain other (by simp [member])
                obtain ⟨used, rfl, operand⟩ := shorter tail.length
                  (by simp only [← size, List.length_cons]; omega) plainTail rightReads rfl
                exact ⟨token :: plus :: used, rfl, .sum atom isPlus operand⟩

/-- A relation that holds of all that the grammar makes of operands and of what it holds of. -/
structure Productions (isOperand : List Token → Formula → Prop)
    (holds : Phrase → List Token → Formula → Prop) : Prop where
  operand {tokens : List Token} {formula : Formula} (operand : isOperand tokens formula) :
    holds .primary tokens formula
  nullTest {tokens : List Token} {test word : Token} {formula : Formula} {negated : Bool}
    (operand : isOperand tokens formula)
    (isTest : test.isOperator (if negated then "IS NOT" else "IS") = true)
    (isMissing : isMissingWord word = true) :
    holds .primary (tokens ++ [test, word]) (.nullTest formula negated)
  compare {lefts rights : List Token} {symbol : Token} {left right : Formula}
    {comparison : Comparison} (leftOperand : isOperand lefts left)
    (isSymbol : symbol.isOperator comparison.symbol = true)
    (rightOperand : isOperand rights right) :
    holds .primary (lefts ++ symbol :: rights) (.compare left comparison right)
  group {opening closing : Token} {tokens : List Token} {formula : Formula}
    (opens : opening.kind = .openParen) (inner : holds .disjunction tokens formula)
    (closes : closing.kind = .closeParen) :
    holds .primary (opening :: (tokens ++ [closing])) (.group formula)
  one {tokens : List Token} {formula : Formula} (primary : holds .primary tokens formula) :
    holds .conjunction tokens formula
  both {lefts rights : List Token} {symbol : Token} {left right : Formula}
    (leftHolds : holds .conjunction lefts left) (isAnd : symbol.isOperator "&" = true)
    (rightHolds : holds .primary rights right) :
    holds .conjunction (lefts ++ symbol :: rights) (.both left right)
  all {tokens : List Token} {formula : Formula} (conjunction : holds .conjunction tokens formula) :
    holds .disjunction tokens formula
  either {lefts rights : List Token} {symbol : Token} {left right : Formula}
    (leftHolds : holds .disjunction lefts left) (isOr : symbol.isOperator "|" = true)
    (rightHolds : holds .conjunction rights right) :
    holds .disjunction (lefts ++ symbol :: rights) (.either left right)

theorem Derives.productions : Productions IsOperand Derives :=
  ⟨.operand, .nullTest, .compare, .group, .one, .both, .all, .either⟩

inductive Tail (primary : List Token → Formula → Prop) :
    List Token → List (Connective × Formula) → Prop
  | nil : Tail primary [] []
  | cons {symbol : Token} {connective : Connective} {tokens rest : List Token}
      {formula : Formula} {more : List (Connective × Formula)}
      (connects : connective? symbol = some connective) (front : primary tokens formula)
      (tail : Tail primary rest more) :
      Tail primary (symbol :: (tokens ++ rest)) ((connective, formula) :: more)

/-- What has been read of a chain: all before the last `|`, and the conjunction behind it. -/
inductive Pending (holds : Phrase → List Token → Formula → Prop) :
    List Token → Option Formula → Formula → Prop
  | first {tokens : List Token} {current : Formula}
      (behind : holds .conjunction tokens current) : Pending holds tokens none current
  | later {lefts rights : List Token} {symbol : Token} {left current : Formula}
      (before : holds .disjunction lefts left) (isOr : symbol.isOperator "|" = true)
      (behind : holds .conjunction rights current) :
      Pending holds (lefts ++ symbol :: rights) (some left) current

def HoldsChain (holds : Phrase → List Token → Formula → Prop) (tokens : List Token)
    (whole : Chain) : Prop :=
  ∃ front back, tokens = front ++ back ∧ holds .primary front whole.first ∧
    Tail (holds .primary) back whole.more

def OperandsSound (good : Token → Prop) (isOperand : List Token → Formula → Prop) : Prop :=
  ∀ tokens : List Token, (∀ token ∈ tokens, good token) →
    ∀ formula rest, Reads (operand tokens) formula rest →
      ∃ used, tokens = used ++ rest ∧ isOperand used formula

section Sound

variable {isOperand : List Token → Formula → Prop} {holds : Phrase → List Token → Formula → Prop}
  (productions : Productions isOperand holds)

include productions

theorem Pending.finish {tokens : List Token} {done : Option Formula} {current : Formula}
    (pending : Pending holds tokens done current) :
    holds .disjunction tokens ((done.map (.either · current)).getD current) := by
  cases pending with
  | first behind => exact productions.all behind
  | later before isOr behind => exact productions.either before isOr behind

theorem Pending.both {tokens rights : List Token} {symbol : Token} {done : Option Formula}
    {current right : Formula} (pending : Pending holds tokens done current)
    (isAnd : symbol.isOperator "&" = true) (rightHolds : holds .primary rights right) :
    Pending holds (tokens ++ symbol :: rights) done (.both current right) := by
  cases pending with
  | first behind => exact .first (productions.both behind isAnd rightHolds)
  | later before isOr behind =>
      have longer := Pending.later before isOr (productions.both behind isAnd rightHolds)
      simpa using longer

theorem Pending.assemble {front back : List Token} {done : Option Formula} {current : Formula}
    {more : List (Connective × Formula)} (pending : Pending holds front done current)
    (tail : Tail (holds .primary) back more) :
    holds .disjunction (front ++ back) (assemble done current more) := by
  induction tail generalizing front done current with
  | nil => simpa [Formula.assemble] using pending.finish productions
  | @cons symbol connective tokens rest formula more connects isPrimary _ ih =>
      have regroup : front ++ symbol :: (tokens ++ rest) = (front ++ symbol :: tokens) ++ rest := by
        simp
      rw [regroup]
      cases connective with
      | and => exact ih (pending.both productions (connective?_eq_and_iff.mp connects) isPrimary)
      | or =>
          exact ih (.later (pending.finish productions) (connective?_eq_or_iff.mp connects)
            (productions.one isPrimary))

theorem HoldsChain.formula {tokens : List Token} {whole : Chain}
    (chain : HoldsChain holds tokens whole) : holds .disjunction tokens whole.formula := by
  obtain ⟨front, back, rfl, first, tail⟩ := chain
  exact (Pending.first (productions.one first)).assemble productions tail

variable {good : Token → Prop} (operandsSound : OperandsSound good isOperand)

include operandsSound

theorem test_sound {tokens : List Token} (allGood : ∀ token ∈ tokens, good token)
    {formula : Formula} {rest : List Token} (reads : Reads (test tokens) formula rest) :
    ∃ used, tokens = used ++ rest ∧ holds .primary used formula := by
  obtain ⟨left, after, leftReads⟩ := exists_reads_of_test reads
  obtain ⟨lefts, rfl, leftOperand⟩ := operandsSound _ allGood _ _ leftReads
  by_cases noTest : NoTest after
  · obtain ⟨rfl, rfl⟩ := (reads_test_bare leftReads noTest).mp reads
    exact ⟨lefts, rfl, productions.operand leftOperand⟩
  · cases after with
    | nil => exact absurd trivial noTest
    | cons token more =>
        cases isTest : nullTest? token with
        | some negated =>
            obtain ⟨word, rfl, isMissing, rfl⟩ := (reads_test_null leftReads isTest).mp reads
            exact ⟨lefts ++ [token, word], by simp,
              productions.nullTest leftOperand (nullTest?_eq_some_iff.mp isTest) isMissing⟩
        | none =>
            cases isComparison : comparison? token with
            | none => exact absurd ⟨isTest, isComparison⟩ noTest
            | some comparison =>
                obtain ⟨right, rightReads, rfl⟩ :=
                  (reads_test_compare leftReads isTest isComparison).mp reads
                have goodMore : ∀ other ∈ more, good other :=
                  fun other member => allGood other (by simp [member])
                obtain ⟨rights, rfl, rightOperand⟩ := operandsSound _ goodMore _ _ rightReads
                exact ⟨lefts ++ token :: rights, by simp,
                  productions.compare leftOperand (comparison?_eq_some_iff.mp isComparison)
                    rightOperand⟩

theorem primary_and_chain_sound {tokens : List Token} (allGood : ∀ token ∈ tokens, good token) :
    (∀ formula rest, Reads (primary tokens) formula rest →
      ∃ used, tokens = used ++ rest ∧ holds .primary used formula) ∧
    (∀ whole rest, Reads (chain tokens) whole rest →
      ∃ used, tokens = used ++ rest ∧ HoldsChain holds used whole) := by
  -- A chain begins with a primary of the same tokens, so the two are claimed for a length at once.
  induction size : tokens.length using Nat.strongRecOn generalizing tokens with
  | ind _ shorter =>
      have primarySound : ∀ formula rest, Reads (primary tokens) formula rest →
          ∃ used, tokens = used ++ rest ∧ holds .primary used formula := by
        intro formula rest reads
        cases tokens with
        | nil =>
            rw [primary] at reads
            exact absurd reads not_reads_error
        | cons token more =>
            by_cases opens : token.kind = .openParen
            · obtain ⟨inner, closing, innerReads, closes, rfl⟩ :=
                (reads_primary_group opens).mp reads
              have goodMore : ∀ other ∈ more, good other :=
                fun other member => allGood other (List.mem_cons_of_mem token member)
              obtain ⟨used, rfl, chain⟩ := (shorter more.length
                (by simp only [← size, List.length_cons]; omega) goodMore rfl).2 _ _ innerReads
              exact ⟨token :: (used ++ [closing]), by simp,
                productions.group opens (chain.formula productions) closes⟩
            · exact test_sound productions operandsSound allGood
                ((reads_primary_test opens).mp reads)
      refine ⟨primarySound, ?_⟩
      intro whole rest reads
      obtain ⟨first, after, firstReads⟩ := exists_reads_of_chain reads
      obtain ⟨front, same, firstHolds⟩ := primarySound first after firstReads
      by_cases noConnective : NoConnective after
      · obtain ⟨rfl, rfl⟩ := (reads_chain_last firstReads noConnective).mp reads
        exact ⟨front, same, front, [], by simp, firstHolds, .nil⟩
      · cases after with
        | nil => exact absurd trivial noConnective
        | cons symbol more =>
            obtain ⟨connective, connects⟩ := Option.ne_none_iff_exists'.mp noConnective
            obtain ⟨next, nextReads, rfl⟩ := (reads_chain_more firstReads connects).mp reads
            subst same
            have goodMore : ∀ other ∈ more, good other :=
              fun other member => allGood other (by simp [member])
            have nextSound := (shorter more.length
              (by simp only [← size, List.length_append, List.length_cons]; omega)
              goodMore rfl).2 _ _ nextReads
            obtain ⟨used, rfl, nextFront, nextBack, rfl, nextFirst, nextTail⟩ := nextSound
            exact ⟨front ++ symbol :: (nextFront ++ nextBack), by simp, front,
              symbol :: (nextFront ++ nextBack), rfl, firstHolds,
              .cons connects nextFirst nextTail⟩

end Sound

theorem ofTokens_eq_ok_iff {tokens : List Token} {formula : Formula} :
    ofTokens tokens = .ok formula ↔
      ∃ whole, Reads (chain tokens) whole [] ∧ formula = whole.formula := by
  unfold ofTokens
  cases read : chain tokens with
  | error stuck => simp [not_reads_error]
  | ok result =>
      obtain ⟨whole, after, shorter⟩ := result
      cases after with
      | nil => simp [reads_ok_iff, eq_comm]
      | cons token more => simp [reads_ok_iff]

theorem holds_of_ofTokens {isOperand : List Token → Formula → Prop}
    {holds : Phrase → List Token → Formula → Prop} (productions : Productions isOperand holds)
    {good : Token → Prop} (operandsSound : OperandsSound good isOperand)
    {tokens : List Token} (allGood : ∀ token ∈ tokens, good token) {formula : Formula}
    (parsed : ofTokens tokens = .ok formula) : holds .disjunction tokens formula := by
  obtain ⟨whole, reads, rfl⟩ := ofTokens_eq_ok_iff.mp parsed
  obtain ⟨used, same, chain⟩ :=
    (primary_and_chain_sound productions operandsSound allGood).2 whole [] reads
  rw [same, List.append_nil]
  exact chain.formula productions

theorem ofTokens_sound {tokens : List Token} (plain : ∀ token ∈ tokens, Plain token)
    {formula : Formula} (parsed : ofTokens tokens = .ok formula) :
    Derives .disjunction tokens formula :=
  holds_of_ofTokens Derives.productions (fun _ allPlain _ _ => operand_sound allPlain) plain parsed

/-! Completeness. -/

def Follows : List Token → Prop
  | [] => True
  | token :: _ => token.kind = .closeParen ∨ (connective? token).isSome = true

theorem isOperator_iff {token : Token} {text : String} :
    token.isOperator text = true ↔ token = ⟨.operator, text⟩ := by
  obtain ⟨kind, other⟩ := token
  simp [Token.isOperator]

theorem eq_of_connects {token : Token} {connective : Connective}
    (connects : connective? token = some connective) :
    token = ⟨.operator, "&"⟩ ∨ token = ⟨.operator, "|"⟩ := by
  cases connective with
  | and => exact Or.inl (isOperator_iff.mp (connective?_eq_and_iff.mp connects))
  | or => exact Or.inr (isOperator_iff.mp (connective?_eq_or_iff.mp connects))

theorem noPlus_of_ne {text : String} (different : text ≠ "+") (more : List Token) :
    NoPlus (⟨.operator, text⟩ :: more) := by
  simpa [NoPlus, Token.isOperator] using different

theorem Follows.of_connects {token : Token} {connective : Connective}
    (connects : connective? token = some connective) (more : List Token) :
    Follows (token :: more) :=
  Or.inr (by simp [connects])

theorem Follows.noTest {rest : List Token} (follows : Follows rest) : NoTest rest := by
  cases rest with
  | nil => trivial
  | cons token more =>
      rcases follows with closes | connects
      · simp [NoTest, nullTest?, comparison?, Token.isOperator, closes]
      · obtain ⟨connective, connects⟩ := Option.isSome_iff_exists.mp connects
        rcases eq_of_connects connects with rfl | rfl <;> exact ⟨by decide, by decide⟩

theorem Follows.noPlus {rest : List Token} (follows : Follows rest) : NoPlus rest := by
  cases rest with
  | nil => trivial
  | cons token more =>
      rcases follows with closes | connects
      · simp [NoPlus, Token.isOperator, closes]
      · obtain ⟨connective, connects⟩ := Option.isSome_iff_exists.mp connects
        rcases eq_of_connects connects with rfl | rfl
        · exact noPlus_of_ne (by decide) more
        · exact noPlus_of_ne (by decide) more

theorem operand_complete {used : List Token} {formula : Formula} (operand : IsOperand used formula)
    {rest : List Token} (plain : ∀ token ∈ used ++ rest, Plain token) (noPlus : NoPlus rest) :
    Reads (Formula.operand (used ++ rest)) formula rest := by
  induction operand with
  | atom atom => exact (reads_operand_atom plain noPlus).mpr ⟨atom, rfl⟩
  | @sum token plus tokens left right atom isPlus _ ih =>
      have plainRest : ∀ other ∈ tokens ++ rest, Plain other := by
        intro other member
        exact plain other (List.mem_cons_of_mem _ (List.mem_cons_of_mem _ member))
      exact (reads_operand_sum (plain token (List.mem_cons_self ..)) isPlus).mpr
        ⟨left, right, atom, ih plainRest, rfl⟩

theorem head_of_isOperand {tokens : List Token} {formula : Formula}
    (operand : IsOperand tokens formula) :
    ∃ token more, tokens = token :: more ∧ token.kind ≠ .openParen := by
  have notOpen : ∀ {token : Token} {formula : Formula}, IsAtom token formula →
      token.kind ≠ .openParen := by
    intro token formula atom
    cases atom <;> simp
  cases operand with
  | atom atom => exact ⟨_, _, rfl, notOpen atom⟩
  | sum atom _ _ => exact ⟨_, _, rfl, notOpen atom⟩

def ReadsPrimary (tokens : List Token) (formula : Formula) : Prop :=
  ∀ rest, Follows rest → (∀ token ∈ tokens ++ rest, Plain token) →
    Reads (primary (tokens ++ rest)) formula rest

theorem readsPrimary_of_test {lefts tokens : List Token} {left formula : Formula}
    (operand : IsOperand lefts left)
    (reads : ∀ rest, Follows rest → (∀ token ∈ (lefts ++ tokens) ++ rest, Plain token) →
      Reads (test ((lefts ++ tokens) ++ rest)) formula rest) :
    ReadsPrimary (lefts ++ tokens) formula := by
  intro rest follows plain
  have read := reads rest follows plain
  obtain ⟨token, more, rfl, notOpen⟩ := head_of_isOperand operand
  exact (reads_primary_test notOpen).mpr read

theorem readsPrimary_operand {tokens : List Token} {formula : Formula}
    (operand : IsOperand tokens formula) : ReadsPrimary tokens formula := by
  rw [← List.append_nil tokens]
  refine readsPrimary_of_test operand fun rest follows plain => ?_
  rw [List.append_nil] at plain ⊢
  have read := operand_complete operand plain follows.noPlus
  exact (reads_test_bare read follows.noTest).mpr ⟨rfl, rfl⟩

theorem readsPrimary_nullTest {tokens : List Token} {symbol word : Token} {formula : Formula}
    {negated : Bool} (operand : IsOperand tokens formula)
    (isTest : symbol.isOperator (if negated then "IS NOT" else "IS") = true)
    (isMissing : isMissingWord word = true) :
    ReadsPrimary (tokens ++ [symbol, word]) (.nullTest formula negated) := by
  refine readsPrimary_of_test operand fun rest follows plain => ?_
  rw [List.append_assoc] at plain ⊢
  have noPlus : NoPlus ([symbol, word] ++ rest) := by
    rw [isOperator_iff.mp isTest]
    exact noPlus_of_ne (by cases negated <;> decide) (word :: rest)
  have read := operand_complete operand plain noPlus
  exact (reads_test_null read (nullTest?_eq_some_iff.mpr isTest)).mpr ⟨word, rfl, isMissing, rfl⟩

theorem readsPrimary_compare {lefts rights : List Token} {symbol : Token} {left right : Formula}
    {comparison : Comparison} (leftOperand : IsOperand lefts left)
    (isSymbol : symbol.isOperator comparison.symbol = true)
    (rightOperand : IsOperand rights right) :
    ReadsPrimary (lefts ++ symbol :: rights) (.compare left comparison right) := by
  refine readsPrimary_of_test leftOperand fun rest follows plain => ?_
  rw [List.append_assoc] at plain ⊢
  have symbolEq := isOperator_iff.mp isSymbol
  have noPlus : NoPlus (symbol :: rights ++ rest) := by
    rw [symbolEq]
    exact noPlus_of_ne (by cases comparison <;> decide) (rights ++ rest)
  have notNull : nullTest? symbol = none := by
    rw [symbolEq]
    cases comparison <;> decide
  have plainRight : ∀ token ∈ rights ++ rest, Plain token :=
    fun token member => plain token
      (List.mem_append_right lefts (List.mem_cons_of_mem symbol member))
  have read := operand_complete leftOperand plain noPlus
  have rightRead := operand_complete rightOperand plainRight follows.noPlus
  exact (reads_test_compare read notNull (comparison?_eq_some_iff.mpr isSymbol)).mpr
    ⟨right, rightRead, rfl⟩

theorem chain_complete {front back : List Token} {first : Formula}
    {more : List (Connective × Formula)} (firstReads : ReadsPrimary front first)
    (tail : Tail ReadsPrimary back more) {rest : List Token}
    (ends : Follows rest ∧ NoConnective rest)
    (plain : ∀ token ∈ front ++ back ++ rest, Plain token) :
    Reads (chain (front ++ back ++ rest)) ⟨first, more⟩ rest := by
  induction tail generalizing front first with
  | nil =>
      rw [List.append_nil] at plain ⊢
      have read := firstReads rest ends.1 plain
      exact (reads_chain_last read ends.2).mpr ⟨rfl, rfl⟩
  | @cons symbol connective tokens others formula more connects reads _ ih =>
      have regroup : front ++ symbol :: (tokens ++ others) ++ rest =
          front ++ (symbol :: (tokens ++ others ++ rest)) := by
        simp
      rw [regroup] at plain ⊢
      have plainTail : ∀ token ∈ tokens ++ others ++ rest, Plain token :=
        fun token member => plain token
          (List.mem_append_right front (List.mem_cons_of_mem symbol member))
      have read := firstReads _ (.of_connects connects _) plain
      exact (reads_chain_more read connects).mpr ⟨_, ih reads plainTail, rfl⟩

def joinAll (current : Formula) (more : List (Connective × Formula)) : Formula :=
  more.foldl (fun joined entry => .both joined entry.2) current

theorem assemble_of_and {more : List (Connective × Formula)}
    (allAnd : ∀ entry ∈ more, entry.1 = .and) (done : Option Formula) (current : Formula) :
    assemble done current more = (done.map (.either · (joinAll current more))).getD
      (joinAll current more) := by
  induction more generalizing current with
  | nil => rfl
  | cons entry more ih =>
      obtain ⟨connective, next⟩ := entry
      obtain ⟨isAnd, rest⟩ := List.forall_mem_cons.mp allAnd
      obtain rfl : connective = .and := isAnd
      exact ih rest (.both current next)

theorem assemble_append_or (done : Option Formula) (current next : Formula)
    (front back : List (Connective × Formula)) :
    assemble done current (front ++ (.or, next) :: back) =
      assemble (some (assemble done current front)) next back := by
  induction front generalizing done current with
  | nil => rfl
  | cons entry front ih =>
      obtain ⟨connective, formula⟩ := entry
      cases connective with
      | and => exact ih done (.both current formula)
      | or => exact ih _ formula

theorem Tail.append {reading : List Token → Formula → Prop} {front back : List Token}
    {more others : List (Connective × Formula)} (tail : Tail reading front more)
    (later : Tail reading back others) : Tail reading (front ++ back) (more ++ others) := by
  induction tail with
  | nil => exact later
  | cons connects reads _ ih =>
      have longer := Tail.cons connects reads ih
      simpa using longer

def ReadsPhrase : Phrase → List Token → Formula → Prop
  | .primary, tokens, formula => ReadsPrimary tokens formula
  | .conjunction, tokens, formula => ∃ front back first more, tokens = front ++ back ∧
      ReadsPrimary front first ∧ Tail ReadsPrimary back more ∧
      (∀ entry ∈ more, entry.1 = .and) ∧ formula = joinAll first more
  | .disjunction, tokens, formula => ∃ front back first more, tokens = front ++ back ∧
      ReadsPrimary front first ∧ Tail ReadsPrimary back more ∧
      formula = assemble none first more

theorem Derives.reads {phrase : Phrase} {tokens : List Token} {formula : Formula}
    (derives : Derives phrase tokens formula) : ReadsPhrase phrase tokens formula := by
  induction derives with
  | operand operand => exact readsPrimary_operand operand
  | nullTest operand isTest isMissing => exact readsPrimary_nullTest operand isTest isMissing
  | compare left isSymbol right => exact readsPrimary_compare left isSymbol right
  | @group opening closing tokens formula opens _ closes inner =>
      obtain ⟨front, back, first, more, rfl, firstReads, tail, rfl⟩ := inner
      intro rest follows plain
      have ends : Follows (closing :: rest) ∧ NoConnective (closing :: rest) := by
        refine ⟨Or.inl closes, ?_⟩
        simp [NoConnective, connective?, Token.isOperator, closes]
      have regroup : opening :: (front ++ back ++ [closing]) ++ rest =
          opening :: (front ++ back ++ closing :: rest) := by
        simp
      rw [regroup] at plain ⊢
      have plainInside : ∀ token ∈ front ++ back ++ closing :: rest, Plain token :=
        fun token member => plain token (List.mem_cons_of_mem opening member)
      exact (reads_primary_group opens).mpr
        ⟨_, closing, chain_complete firstReads tail ends plainInside, closes, rfl⟩
  | @one tokens formula _ reads =>
      exact ⟨tokens, [], formula, [], by simp, reads, .nil, by simp, rfl⟩
  | @both lefts rights symbol left right _ isAnd _ leftReads rightReads =>
      obtain ⟨front, back, first, more, rfl, firstReads, tail, allAnd, rfl⟩ := leftReads
      have last : Tail ReadsPrimary (symbol :: (rights ++ [])) [(.and, right)] :=
        .cons (connective?_eq_and_iff.mpr isAnd) rightReads .nil
      refine ⟨front, back ++ symbol :: rights, first, more ++ [(.and, right)], by simp, firstReads,
        by simpa using tail.append last, ?_, ?_⟩
      · intro entry member
        rcases List.mem_append.mp member with early | late
        · exact allAnd entry early
        · rw [List.mem_singleton.mp late]
      · simp [joinAll]
  | all _ reads =>
      obtain ⟨front, back, first, more, same, firstReads, tail, allAnd, rfl⟩ := reads
      have assembled := assemble_of_and allAnd none first
      exact ⟨front, back, first, more, same, firstReads, tail, assembled.symm⟩
  | @either lefts rights symbol left right _ isOr _ leftReads rightReads =>
      obtain ⟨front, back, first, more, rfl, firstReads, tail, rfl⟩ := leftReads
      obtain ⟨nextFront, nextBack, next, others, rfl, nextReads, nextTail, allAnd, rfl⟩ :=
        rightReads
      have last := Tail.cons (connective?_eq_or_iff.mpr isOr) nextReads nextTail
      refine ⟨front, back ++ symbol :: (nextFront ++ nextBack), first,
        more ++ (.or, next) :: others, by simp, firstReads, tail.append last, ?_⟩
      rw [assemble_append_or, assemble_of_and allAnd]
      rfl

theorem ofTokens_complete {tokens : List Token} (plain : ∀ token ∈ tokens, Plain token)
    {formula : Formula} (derives : Derives .disjunction tokens formula) :
    ofTokens tokens = .ok formula := by
  obtain ⟨front, back, first, more, rfl, firstReads, tail, rfl⟩ := derives.reads
  rw [ofTokens_eq_ok_iff]
  refine ⟨⟨first, more⟩, ?_, rfl⟩
  rw [← List.append_nil (front ++ back)] at plain ⊢
  exact chain_complete firstReads tail ⟨trivial, trivial⟩ plain

end TableSieve.Formula
