import Mathlib
import TableSieve.Proofs.Accepting
import TableSieve.Proofs.ReaderOutcomes

/-!
Where readers stop. A reader decides by the next token alone. So what it read it reads as well
before any other tokens that begin alike, and the token at which it stops is the first one that no
accepted tokens have in its place: with it every continuation fails, and without it some
continuation succeeds.
-/

namespace TableSieve.Formula

variable {α β : Type}

def Closes (rest : List Token) : Prop :=
  ∀ token ∈ rest.head?, token.kind = .closeParen

def Alike (rest other : List Token) : Prop :=
  other.head? = rest.head? ∨ Closes other

/-- What a reader makes of some tokens. What it read it reads before all tokens that begin alike.
Where it stops, it stops whatever comes behind the token at fault, and there are other tokens, of
the given kind, with which it goes on to an end. -/
structure Foresees (fits : List Token → Prop) (read : List Token → Outcome α)
    (tokens : List Token) : Prop where
  reads {value : α} {rest : List Token} : read tokens = .ok (value, rest) →
    ∃ used, tokens = used ++ rest ∧
      ∀ other, Alike rest other → read (used ++ other) = .ok (value, other)
  stops {stuck : List Token} : read tokens = .error stuck →
    ∃ front, tokens = front ++ stuck ∧
      (∀ other, other.head? = stuck.head? → read (front ++ other) = .error other) ∧
      ∃ more value, (stuck = [] → more ≠ []) ∧ ∀ rest, Closes rest →
        fits (front ++ (more ++ rest)) ∧ read (front ++ (more ++ rest)) = .ok (value, rest)

theorem closes_nil : Closes [] := by
  simp [Closes]

theorem closes_cons {token : Token} {rest : List Token} (closes : token.kind = .closeParen) :
    Closes (token :: rest) := by
  rintro _ ⟨⟩
  exact closes

theorem Alike.append {rest other : List Token} (alike : Alike rest other) (used : List Token) :
    Alike (used ++ rest) (used ++ other) := by
  cases used with
  | nil => exact alike
  | cons token used => exact .inl rfl

section Foresees

variable {fits : List Token → Prop} {read : List Token → Outcome α} {tokens : List Token}

theorem foresees_stay {value : α}
    (stays : ∀ other, Alike tokens other → read other = .ok (value, other)) :
    Foresees fits read tokens := by
  have same := stays tokens (.inl rfl)
  constructor
  · intro other rest reads
    obtain ⟨rfl, rfl⟩ : value = other ∧ tokens = rest := by simpa [same] using reads
    exact ⟨[], rfl, stays⟩
  · intro stuck stops
    rw [same] at stops
    cases stops

theorem foresees_one {value? : Token → Option α} (token : Token) {value : α}
    (stands : value? token = some value) (fitting : ∀ rest, fits (token :: rest)) :
    Foresees fits (one value?) tokens := by
  constructor
  · intro other rest reads
    obtain ⟨first, rfl, found⟩ := one_eq_ok_iff.mp reads
    exact ⟨[first], rfl, fun rest _ => one_eq_ok_iff.mpr ⟨first, rfl, found⟩⟩
  · intro stuck stops
    obtain ⟨rfl, unread⟩ := one_eq_error_iff.mp stops
    refine ⟨[], rfl, fun other same => ?_, [token], value, by simp, fun rest _ => ?_⟩
    · exact one_eq_error_iff.mpr ⟨rfl, same ▸ unread⟩
    · exact ⟨fitting rest, one_eq_ok_iff.mpr ⟨token, rfl, stands⟩⟩

theorem Foresees.behind {next : List Token → Outcome β}
    (foresees : Foresees (fun _ => True) next tokens) (front : List Token) (change : β → α)
    (same : ∀ tokens, read (front ++ tokens) = changed change (next tokens))
    (fitting : ∀ rest, fits (front ++ rest)) : Foresees fits read (front ++ tokens) := by
  constructor
  · intro value rest reads
    rw [same] at reads
    obtain ⟨found, nextReads, rfl⟩ := changed_eq_ok_iff.mp reads
    obtain ⟨used, rfl, alike⟩ := foresees.reads nextReads
    refine ⟨front ++ used, by rw [List.append_assoc], fun other begins => ?_⟩
    rw [List.append_assoc, same, alike other begins, changed_ok]
  · intro stuck stops
    rw [same, changed_eq_error_iff] at stops
    obtain ⟨used, rfl, stuckToo, more, value, some, completes⟩ := foresees.stops stops
    refine ⟨front ++ used, by rw [List.append_assoc], fun other begins => ?_, more, change value,
      some, fun rest closes => ?_⟩
    · rw [List.append_assoc, same, stuckToo other begins, changed_error]
    · rw [List.append_assoc, same, (completes rest closes).2, changed_ok]
      exact ⟨fitting _, rfl⟩

/-- A reader after another one. The second may stop at once only where its end fits behind the
first. -/
theorem Foresees.andThen {first : List Token → Outcome β} {next : β → List Token → Outcome α}
    (foresees : Foresees (fun _ => True) first tokens)
    (nextForesees : ∀ value rest, first tokens = .ok (value, rest) →
      Foresees (Alike rest) (next value) rest)
    (ends : ∀ value, ∃ last result, ∀ rest, Closes rest →
      Closes (last ++ rest) ∧ next value (last ++ rest) = .ok (result, rest)) :
    Foresees (fun _ => True) (andThen first next) tokens := by
  constructor
  · intro result after reads
    obtain ⟨value, rest, firstReads, nextReads⟩ := andThen_eq_ok_iff.mp reads
    obtain ⟨used, rfl, alike⟩ := foresees.reads firstReads
    obtain ⟨further, rfl, nextAlike⟩ := (nextForesees value rest firstReads).reads nextReads
    refine ⟨used ++ further, by rw [List.append_assoc], fun other begins => ?_⟩
    rw [List.append_assoc, andThen_of_ok (alike _ (begins.append further)), nextAlike other begins]
  · intro stuck stops
    rcases andThen_eq_error_iff.mp stops with firstStops | ⟨value, rest, firstReads, nextStops⟩
    · obtain ⟨front, rfl, stuckToo, more, value, some, completes⟩ := foresees.stops firstStops
      obtain ⟨last, result, closing⟩ := ends value
      refine ⟨front, rfl, fun other begins => andThen_of_error (stuckToo other begins) next,
        more ++ last, result, ?_, fun rest closes => ⟨trivial, ?_⟩⟩
      · simpa using fun none empty => absurd empty (some none)
      · obtain ⟨closesToo, finishes⟩ := closing rest closes
        rw [List.append_assoc, andThen_of_ok (completes _ closesToo).2, finishes]
    · obtain ⟨used, rfl, alike⟩ := foresees.reads firstReads
      obtain ⟨front, rfl, stuckToo, more, result, some, completes⟩ :=
        (nextForesees value rest firstReads).stops nextStops
      refine ⟨used ++ front, by rw [List.append_assoc], fun other begins => ?_, more, result, some,
        fun rest closes => ⟨trivial, ?_⟩⟩
      · have begins' : Alike stuck other := .inl begins
        rw [List.append_assoc, andThen_of_ok (alike _ (begins'.append front)),
          stuckToo other begins]
      · obtain ⟨fit, finishes⟩ := completes rest closes
        rw [List.append_assoc, andThen_of_ok (alike _ fit), finishes]

end Foresees

/-! The readers. -/

theorem summands_stay {left : Formula} {tokens : List Token}
    (ends : ∀ token ∈ tokens.head?, token.isOperator "+" = false ∧ plusRun? token = none) :
    summands left tokens = .ok (left, tokens) := by
  match tokens with
  | [] => rfl
  | token :: rest =>
      obtain ⟨notPlus, noRun⟩ := ends token rfl
      simp [summands, notPlus, noRun]

theorem relation_stay {left : Formula} {tokens : List Token}
    (ends : ∀ token ∈ tokens.head?, nullTest? token = none ∧ comparison? token = none) :
    relation left tokens = .ok (left, tokens) := by
  match tokens with
  | [] => rfl
  | token :: rest =>
      obtain ⟨notNull, noComparison⟩ := ends token rfl
      simp [relation, notNull, noComparison]

theorem links_stay {first : Formula} {tokens : List Token}
    (ends : ∀ token ∈ tokens.head?, connective? token = none) :
    links first tokens = .ok (⟨first, []⟩, tokens) := by
  match tokens with
  | [] => rfl
  | token :: rest => simp [links, ends token rfl]

theorem Alike.head {rest other : List Token} {holds : Token → Prop} (alike : Alike rest other)
    (next : ∀ token ∈ rest.head?, holds token)
    (closing : ∀ token : Token, token.kind = .closeParen → holds token) :
    ∀ token ∈ other.head?, holds token := by
  rcases alike with same | closes
  · rwa [same]
  · exact fun token member => closing token (closes token member)

theorem plusRun?_of_closeParen {token : Token} (closes : token.kind = .closeParen) :
    token.isOperator "+" = false ∧ plusRun? token = none := by
  simp [Token.isOperator, plusRun?, closes]

theorem noTest_of_closeParen {token : Token} (closes : token.kind = .closeParen) :
    nullTest? token = none ∧ comparison? token = none := by
  simp [nullTest?, comparison?, Token.isOperator, closes]

theorem noConnective_of_closeParen {token : Token} (closes : token.kind = .closeParen) :
    connective? token = none := by
  simp [connective?, Token.isOperator, closes]

theorem foresees_led {left : Formula} {next : Token} {run : List Char} {rest : List Token}
    (notPlus : next.isOperator "+" = false) (led : plusRun? next = some run) :
    Foresees (Alike (next :: rest)) (summands left) (next :: rest) := by
  cases read : ofRun? run with
  | none =>
      have fails (tokens : List Token) :
          summands left (next :: tokens) = .error (next :: tokens) := by
        simp [summands, notPlus, led, read]
      constructor
      · intro value after reads
        rw [fails] at reads
        cases reads
      · intro stuck stops
        obtain rfl : next :: rest = stuck := by simpa [fails] using stops
        refine ⟨[], rfl, fun other same => ?_, [], left, by simp, fun rest closes => ?_⟩
        · obtain ⟨tokens, rfl⟩ : ∃ tokens, other = next :: tokens :=
            List.head?_eq_some_iff.mp same
          exact fails tokens
        · exact ⟨.inr closes, summands_stay fun token member =>
            plusRun?_of_closeParen (closes token member)⟩
  | some right =>
      have goesOn (tokens : List Token) :
          summands left (next :: tokens) = .ok (.sum left right, tokens) := by
        simp [summands, notPlus, led, read]
      constructor
      · intro value after reads
        obtain ⟨rfl, rfl⟩ : Formula.sum left right = value ∧ rest = after := by
          simpa [goesOn] using reads
        exact ⟨[next], rfl, fun other _ => goesOn other⟩
      · intro stuck stops
        rw [goesOn] at stops
        cases stops

theorem foresees_summands {left : Formula} {tokens : List Token}
    (shorter : ∀ more : List Token, more.length < tokens.length →
      Foresees (fun _ => True) (fun tokens => outcome (operand tokens)) more) :
    Foresees (Alike tokens) (summands left) tokens := by
  match tokens with
  | [] => exact foresees_stay fun other alike =>
      summands_stay (alike.head (by simp) fun _ => plusRun?_of_closeParen)
  | next :: rest =>
      by_cases isPlus : next.isOperator "+" = true
      · exact (shorter rest (by simp)).behind [next] (.sum left)
          (fun tokens => by simp [summands, isPlus]) fun rest => .inl rfl
      · rw [Bool.not_eq_true] at isPlus
        cases led : plusRun? next with
        | none => exact foresees_stay fun other alike =>
            summands_stay (alike.head (by simp [isPlus, led]) fun _ => plusRun?_of_closeParen)
        | some run => exact foresees_led isPlus led

theorem foresees_operand (tokens : List Token) :
    Foresees (fun _ => True) (fun tokens => outcome (operand tokens)) tokens := by
  induction size : tokens.length using Nat.strongRecOn generalizing tokens with
  | ind _ shorter =>
      simp only [outcome_operand]
      have leaf : ofLeaf? ⟨.identifier, "a"⟩ = some (.field "a") := by decide
      refine Foresees.andThen (foresees_one _ leaf fun _ => trivial) (fun left rest read => ?_)
        fun left => ⟨[], left, fun rest closes => ⟨closes, ?_⟩⟩
      · obtain ⟨token, rfl, _⟩ := one_eq_ok_iff.mp read
        exact foresees_summands fun more less =>
          shorter more.length (by simp only [← size, List.length_cons]; omega) more rfl
      · exact summands_stay fun token member => plusRun?_of_closeParen (closes token member)

theorem foresees_relation {left : Formula} {tokens : List Token} :
    Foresees (Alike tokens) (relation left) tokens := by
  match tokens with
  | [] => exact foresees_stay fun other alike =>
      relation_stay (alike.head (by simp) fun _ => noTest_of_closeParen)
  | token :: rest =>
      cases isTest : nullTest? token with
      | some negated =>
          have word : isMissingWord ⟨.identifier, "NA"⟩ = true := by decide
          have reads : Foresees (fun _ => True) (one (Option.guard isMissingWord)) rest :=
            foresees_one _ (Option.guard_eq_some_iff.mpr ⟨rfl, word⟩) fun _ => trivial
          exact reads.behind [token] (fun _ => .nullTest left negated)
            (fun tokens => by simp [relation, isTest]) fun rest => .inl rfl
      | none =>
          cases isComparison : comparison? token with
          | none => exact foresees_stay fun other alike =>
              relation_stay (alike.head (by simp [isTest, isComparison])
                fun _ => noTest_of_closeParen)
          | some comparison =>
              exact (foresees_operand rest).behind [token] (.compare left comparison)
                (fun tokens => by simp [relation, isTest, isComparison]) fun rest => .inl rfl

theorem foresees_test (tokens : List Token) :
    Foresees (fun _ => True) (fun tokens => outcome (test tokens)) tokens := by
  simp only [outcome_test]
  exact (foresees_operand tokens).andThen (fun _ _ _ => foresees_relation)
    fun left => ⟨[], left, fun rest closes => ⟨closes,
      relation_stay fun token member => noTest_of_closeParen (closes token member)⟩⟩

theorem length_lt_of_outcome {tokens rest : List Token} {parsed : Parsed α tokens} {value : α}
    (reads : outcome parsed = .ok (value, rest)) : rest.length < tokens.length := by
  match parsed with
  | .error stuck => cases reads
  | .ok (found, ⟨after, shorter⟩) =>
      obtain ⟨rfl, rfl⟩ : found = value ∧ after = rest := by simpa using reads
      exact shorter

theorem outcome_primary_of_test {tokens rest : List Token} {value : Formula}
    (reads : outcome (test tokens) = .ok (value, rest)) :
    outcome (primary tokens) = .ok (value, rest) := by
  have notOpen : ∀ token ∈ tokens.head?, token.kind ≠ .openParen := by
    rw [outcome_test] at reads
    obtain ⟨left, after, leftReads, _⟩ := andThen_eq_ok_iff.mp reads
    rw [outcome_operand] at leftReads
    obtain ⟨leaf, after, leafReads, _⟩ := andThen_eq_ok_iff.mp leftReads
    obtain ⟨token, rfl, isLeaf⟩ := one_eq_ok_iff.mp leafReads
    rintro _ ⟨⟩ opens
    simp [ofLeaf?, opens] at isLeaf
  rw [outcome_primary_test notOpen, reads]

theorem foresees_primary_of_test {tokens : List Token}
    (notOpen : ∀ token ∈ tokens.head?, token.kind ≠ .openParen) :
    Foresees (fun _ => True) (fun tokens => outcome (primary tokens)) tokens := by
  have foresees := foresees_test tokens
  constructor
  · intro value rest reads
    rw [outcome_primary_test notOpen] at reads
    obtain ⟨used, same, alike⟩ := foresees.reads reads
    exact ⟨used, same, fun other begins => outcome_primary_of_test (alike other begins)⟩
  · intro stuck stops
    rw [outcome_primary_test notOpen] at stops
    obtain ⟨front, rfl, stuckToo, more, value, some, completes⟩ := foresees.stops stops
    refine ⟨front, rfl, fun other begins => ?_, more, value, some, fun rest closes =>
      ⟨trivial, outcome_primary_of_test (completes rest closes).2⟩⟩
    have sameHead : (front ++ other).head? = (front ++ stuck).head? := by
      simp only [List.head?_append, begins]
    rw [outcome_primary_test (sameHead ▸ notOpen)]
    exact stuckToo other begins

theorem foresees_links {first : Formula} {tokens : List Token}
    (shorter : ∀ more : List Token, more.length < tokens.length →
      Foresees (fun _ => True) (fun tokens => outcome (chain tokens)) more) :
    Foresees (Alike tokens) (links first) tokens := by
  match tokens with
  | [] => exact foresees_stay fun other alike =>
      links_stay (alike.head (by simp) fun _ => noConnective_of_closeParen)
  | token :: rest =>
      cases connects : connective? token with
      | none => exact foresees_stay fun other alike =>
          links_stay (alike.head (by simp [connects]) fun _ => noConnective_of_closeParen)
      | some connective =>
          exact (shorter rest (by simp)).behind [token]
            (fun next => ⟨first, (connective, next.first) :: next.more⟩)
            (fun tokens => by simp [links, connects]) fun rest => .inl rfl

theorem foresees_close {inner : Chain} {tokens : List Token} :
    Foresees (Alike tokens) (close inner) tokens :=
  foresees_one ⟨.closeParen, ")"⟩ rfl fun _ => .inr (closes_cons rfl)

theorem foresees_chain (tokens : List Token) :
    Foresees (fun _ => True) (fun tokens => outcome (chain tokens)) tokens := by
  induction size : tokens.length using Nat.strongRecOn generalizing tokens with
  | ind _ shorter =>
      have primaryForesees :
          Foresees (fun _ => True) (fun tokens => outcome (primary tokens)) tokens := by
        by_cases notOpen : ∀ token ∈ tokens.head?, token.kind ≠ .openParen
        · exact foresees_primary_of_test notOpen
        · match tokens with
          | [] => simp at notOpen
          | opening :: rest =>
              have opens : opening.kind = .openParen := by simpa using notOpen
              have inside : Foresees (fun _ => True)
                  (andThen (fun tokens => outcome (chain tokens)) close) rest := by
                have inner := shorter rest.length (by simp [← size]) rest rfl
                exact inner.andThen (fun _ _ _ => foresees_close) fun whole =>
                  ⟨[⟨.closeParen, ")"⟩], whole, fun rest _ => ⟨closes_cons rfl, rfl⟩⟩
              exact inside.behind [opening] _ (outcome_primary_group opens) fun _ => trivial
      simp only [outcome_chain]
      refine primaryForesees.andThen (fun first rest read => ?_)
        fun first => ⟨[], ⟨first, []⟩, fun rest closes => ⟨closes,
          links_stay fun token member => noConnective_of_closeParen (closes token member)⟩⟩
      have less := length_lt_of_outcome read
      exact foresees_links fun more fewer => shorter more.length (by omega) more rfl

/-! What the errors say. -/

def Accepted (tokens : List Token) : Prop :=
  ∃ formula, ofTokens tokens = .ok formula

/-- Some accepted tokens begin so. -/
def BeginsAccepted (tokens : List Token) : Prop :=
  ∃ more, Accepted (tokens ++ more)

/-- An error names the first token that no accepted tokens have in its place, or says that the
tokens end before accepted ones do. -/
def PointsAtFault (tokens : List Token) : FormulaError → Prop
  | .unexpectedToken text position =>
    (∃ token, tokens[position]? = some token ∧ token.text = text) ∧
      BeginsAccepted (tokens.take position) ∧ ¬BeginsAccepted (tokens.take (position + 1))
  | .trailingInput text =>
    ∃ position, (∃ token, tokens[position]? = some token ∧ token.text = text) ∧
      Accepted (tokens.take position) ∧ ¬BeginsAccepted (tokens.take (position + 1))
  | .unexpectedEnd => ∃ more, more ≠ [] ∧ Accepted (tokens ++ more)
  | .empty | .unbalancedParens | .missingOperator => False

theorem accepted_iff {tokens : List Token} :
    Accepted tokens ↔ ∃ whole, outcome (chain tokens) = .ok (whole, []) := by
  unfold Accepted ofTokens
  match chain tokens with
  | .error stuck => simp
  | .ok (whole, ⟨[], shorter⟩) => simp
  | .ok (whole, ⟨token :: rest, shorter⟩) => simp

/-- A token behind which every reading ends the same way, but not at the end, is in no accepted
tokens. -/
theorem not_beginsAccepted {front : List Token} {token : Token}
    (fails : ∀ more whole, outcome (chain (front ++ token :: more)) ≠ .ok (whole, [])) :
    ¬BeginsAccepted (front ++ [token]) := by
  rintro ⟨more, accepted⟩
  obtain ⟨whole, reads⟩ := accepted_iff.mp accepted
  rw [List.append_assoc, List.singleton_append] at reads
  exact fails more whole reads

theorem stuckError_points_at_fault {tokens stuck : List Token}
    (stops : outcome (chain tokens) = .error stuck) :
    PointsAtFault tokens (stuckError tokens stuck) := by
  obtain ⟨front, rfl, stuckToo, more, whole, some, completes⟩ := (foresees_chain tokens).stops stops
  have accepted : Accepted (front ++ more) := by
    have reads := (completes [] closes_nil).2
    rw [List.append_nil] at reads
    exact accepted_iff.mpr ⟨whole, reads⟩
  match stuck with
  | [] => exact ⟨more, some rfl, by rwa [List.append_nil]⟩
  | token :: rest =>
      have position : (front ++ token :: rest).length - (token :: rest).length = front.length := by
        simp
      rw [stuckError, position]
      refine ⟨⟨token, by simp, rfl⟩, ⟨more, by rwa [List.take_left]⟩, ?_⟩
      rw [List.take_length_add_append, List.take_succ_cons, List.take_zero]
      refine not_beginsAccepted fun more whole reads => ?_
      have fails := stuckToo (token :: more) rfl
      rw [reads] at fails
      cases fails

theorem trailingInput_points_at_fault {tokens rest : List Token} {token : Token} {whole : Chain}
    (reads : outcome (chain tokens) = .ok (whole, token :: rest)) :
    PointsAtFault tokens (.trailingInput token.text) := by
  obtain ⟨front, rfl, alike⟩ := (foresees_chain tokens).reads reads
  have accepted : Accepted front := by
    have alone := alike [] (.inr closes_nil)
    rw [List.append_nil] at alone
    exact accepted_iff.mpr ⟨whole, alone⟩
  refine ⟨front.length, ⟨token, by simp, rfl⟩, by rwa [List.take_left], ?_⟩
  rw [List.take_length_add_append, List.take_succ_cons, List.take_zero]
  refine not_beginsAccepted fun more other reads => ?_
  have leaves := alike (token :: more) (.inl rfl)
  rw [reads] at leaves
  simp at leaves

theorem ofTokens_eq_error_iff {tokens : List Token} {error : FormulaError} :
    ofTokens tokens = .error error ↔
      (∃ stuck, outcome (chain tokens) = .error stuck ∧ stuckError tokens stuck = error) ∨
      ∃ whole token rest, outcome (chain tokens) = .ok (whole, token :: rest) ∧
        .trailingInput token.text = error := by
  unfold ofTokens
  match chain tokens with
  | .error stuck => simp
  | .ok (whole, ⟨[], shorter⟩) => simp
  | .ok (whole, ⟨token :: rest, shorter⟩) => simp [and_assoc]

theorem ofTokens_points_at_fault {tokens : List Token} {error : FormulaError}
    (failed : ofTokens tokens = .error error) : PointsAtFault tokens error := by
  rcases ofTokens_eq_error_iff.mp failed with ⟨stuck, stops, rfl⟩ | ⟨whole, token, rest, reads, rfl⟩
  · exact stuckError_points_at_fault stops
  · exact trailingInput_points_at_fault reads

/-- Where a text passes the checks made before the grammar is tried, its error points at the first
token at fault. -/
theorem parse_points_at_fault {text : String} {error : FormulaError}
    (failed : parse text = .error error) :
    error = .empty ∨ error = .unbalancedParens ∨ error = .missingOperator ∨
      PointsAtFault (tokenize text) error := by
  unfold parse at failed
  dsimp only at failed
  split at failed
  · exact .inl (Except.error.inj failed).symm
  · split at failed
    · exact .inr (.inl (Except.error.inj failed).symm)
    · split at failed
      · exact .inr (.inr (.inl (Except.error.inj failed).symm))
      · exact .inr (.inr (.inr (ofTokens_points_at_fault failed)))

theorem parse_points_at_fault_grouped :
    (parse "a > 1 & (b IS 3)" = .error (.unexpectedToken "3" 7) ∧
      PointsAtFault (tokenize "a > 1 & (b IS 3)") (.unexpectedToken "3" 7)) ∧
    (parse "a +b + c > 0" = .error (.trailingInput "+") ∧
      PointsAtFault (tokenize "a +b + c > 0") (.trailingInput "+")) ∧
    parse "(a > 1) | b +" = .error .unexpectedEnd ∧
      PointsAtFault (tokenize "(a > 1) | b +") .unexpectedEnd := by
  have test : parse "a > 1 & (b IS 3)" = .error (.unexpectedToken "3" 7) := by
    have tokens : tokenize "a > 1 & (b IS 3)" =
        [⟨.identifier, "a"⟩, ⟨.operator, ">"⟩, ⟨.number, "1"⟩, ⟨.operator, "&"⟩, ⟨.openParen, "("⟩,
          ⟨.identifier, "b"⟩, ⟨.operator, "IS"⟩, ⟨.number, "3"⟩, ⟨.closeParen, ")"⟩] := by
      decide +kernel
    refine (parse_eq_ofTokens_of_checks tokens (by decide +kernel) (by decide +kernel)
      (by decide +kernel)).trans ?_
    cbv
  have led : parse "a +b + c > 0" = .error (.trailingInput "+") := by
    have tokens : tokenize "a +b + c > 0" =
        [⟨.identifier, "a"⟩, ⟨.identifier, "+b"⟩, ⟨.operator, "+"⟩, ⟨.identifier, "c"⟩,
          ⟨.operator, ">"⟩, ⟨.number, "0"⟩] := by
      decide +kernel
    refine (parse_eq_ofTokens_of_checks tokens (by decide +kernel) (by decide +kernel)
      (by decide +kernel)).trans ?_
    cbv
  have ends : parse "(a > 1) | b +" = .error .unexpectedEnd := by
    have tokens : tokenize "(a > 1) | b +" =
        [⟨.openParen, "("⟩, ⟨.identifier, "a"⟩, ⟨.operator, ">"⟩, ⟨.number, "1"⟩,
          ⟨.closeParen, ")"⟩, ⟨.operator, "|"⟩, ⟨.identifier, "b"⟩, ⟨.operator, "+"⟩] := by
      decide +kernel
    refine (parse_eq_ofTokens_of_checks tokens (by decide +kernel) (by decide +kernel)
      (by decide +kernel)).trans ?_
    cbv
  have points := parse_points_at_fault test
  have ledPoints := parse_points_at_fault led
  have endPoints := parse_points_at_fault ends
  simp only [reduceCtorEq, false_or] at points ledPoints endPoints
  exact ⟨⟨test, points⟩, ⟨led, ledPoints⟩, ends, endPoints⟩

end TableSieve.Formula
