import TableSieve.Proofs.Parsing

/-!
Readers as functions to what they read and the tokens they leave, without the proof that something
was read. So each of them is put together from smaller ones: one that reads a single token, and one
that goes on where another one ended.
-/

namespace TableSieve.Formula

variable {α β : Type}

/-- What a reader read and the tokens after it, or the tokens from the offending one on. -/
abbrev Outcome (α : Type) := Except (List Token) (α × List Token)

def outcome {tokens : List Token} (parsed : Parsed α tokens) : Outcome α :=
  parsed.map fun read => (read.1, read.2.val)

def changed (change : α → β) (outcome : Outcome α) : Outcome β :=
  outcome.map fun read => (change read.1, read.2)

def andThen (first : List Token → Outcome α) (next : α → List Token → Outcome β)
    (tokens : List Token) : Outcome β :=
  (first tokens).bind fun read => next read.1 read.2

theorem andThen_of_ok {first : List Token → Outcome α} {tokens rest : List Token} {value : α}
    (read : first tokens = .ok (value, rest)) (next : α → List Token → Outcome β) :
    andThen first next tokens = next value rest := by
  rw [andThen, read]
  rfl

theorem andThen_of_error {first : List Token → Outcome α} {tokens stuck : List Token}
    (stops : first tokens = .error stuck) (next : α → List Token → Outcome β) :
    andThen first next tokens = .error stuck := by
  rw [andThen, stops]
  rfl

theorem andThen_eq_ok_iff {first : List Token → Outcome α} {next : α → List Token → Outcome β}
    {tokens rest : List Token} {result : β} :
    andThen first next tokens = .ok (result, rest) ↔
      ∃ value after, first tokens = .ok (value, after) ∧ next value after = .ok (result, rest) := by
  cases read : first tokens with
  | error stuck => simp [andThen_of_error read]
  | ok found =>
      obtain ⟨value, after⟩ := found
      simp [andThen_of_ok read, and_assoc]

theorem andThen_eq_error_iff {first : List Token → Outcome α} {next : α → List Token → Outcome β}
    {tokens stuck : List Token} :
    andThen first next tokens = .error stuck ↔ first tokens = .error stuck ∨
      ∃ value after, first tokens = .ok (value, after) ∧ next value after = .error stuck := by
  cases read : first tokens with
  | error stuck => simp [andThen_of_error read]
  | ok found =>
      obtain ⟨value, after⟩ := found
      simp [andThen_of_ok read, and_assoc]

@[simp]
theorem outcome_ok {tokens rest : List Token} (value : α) (shorter : rest.length < tokens.length) :
    outcome (.ok (value, ⟨rest, shorter⟩) : Parsed α tokens) = .ok (value, rest) :=
  rfl

@[simp]
theorem outcome_error {tokens : List Token} (stuck : List Token) :
    outcome (.error stuck : Parsed α tokens) = .error stuck :=
  rfl

@[simp]
theorem changed_ok (change : α → β) (value : α) (rest : List Token) :
    changed change (.ok (value, rest)) = .ok (change value, rest) :=
  rfl

@[simp]
theorem changed_error (change : α → β) (stuck : List Token) :
    changed change (.error stuck) = .error stuck :=
  rfl

theorem changed_eq_ok_iff {change : α → β} {outcome : Outcome α} {result : β} {rest : List Token} :
    changed change outcome = .ok (result, rest) ↔
      ∃ value, outcome = .ok (value, rest) ∧ change value = result := by
  match outcome with
  | .error stuck => simp
  | .ok (value, after) =>
      simp only [changed_ok, Except.ok.injEq, Prod.mk.injEq]
      constructor
      · rintro ⟨same, rest⟩
        exact ⟨value, ⟨rfl, rest⟩, same⟩
      · rintro ⟨_, ⟨rfl, rest⟩, same⟩
        exact ⟨same, rest⟩

theorem changed_eq_error_iff {change : α → β} {outcome : Outcome α} {stuck : List Token} :
    changed change outcome = .error stuck ↔ outcome = .error stuck := by
  match outcome with
  | .error other => simp
  | .ok (value, after) => simp

def one (value? : Token → Option α) : List Token → Outcome α
  | [] => .error []
  | token :: rest =>
    match value? token with
    | none => .error (token :: rest)
    | some value => .ok (value, rest)

theorem one_eq_ok_iff {value? : Token → Option α} {tokens rest : List Token} {value : α} :
    one value? tokens = .ok (value, rest) ↔
      ∃ token, tokens = token :: rest ∧ value? token = some value := by
  match tokens with
  | [] => simp [one]
  | token :: after =>
      simp only [one, List.cons.injEq, and_assoc, exists_eq_left']
      cases value? token <;> simp [and_comm]

theorem one_eq_error_iff {value? : Token → Option α} {tokens stuck : List Token} :
    one value? tokens = .error stuck ↔
      stuck = tokens ∧ ∀ token ∈ tokens.head?, value? token = none := by
  match tokens with
  | [] => simp [one, eq_comm]
  | token :: after => cases found : value? token <;> simp [one, found, eq_comm]

def summands (left : Formula) : List Token → Outcome Formula
  | [] => .ok (left, [])
  | next :: rest =>
    if next.isOperator "+" then changed (.sum left) (outcome (operand rest))
    else
      match plusRun? next with
      | none => .ok (left, next :: rest)
      | some run =>
        match ofRun? run with
        | none => .error (next :: rest)
        | some right => .ok (.sum left right, rest)

def relation (left : Formula) : List Token → Outcome Formula
  | [] => .ok (left, [])
  | token :: rest =>
    match nullTest? token with
    | some negated =>
      changed (fun _ => .nullTest left negated) (one (Option.guard isMissingWord) rest)
    | none =>
      match comparison? token with
      | none => .ok (left, token :: rest)
      | some comparison => changed (.compare left comparison) (outcome (operand rest))

def close (inner : Chain) : List Token → Outcome Chain :=
  one fun token => if token.kind = .closeParen then some inner else none

def links (first : Formula) : List Token → Outcome Chain
  | [] => .ok (⟨first, []⟩, [])
  | token :: rest =>
    match connective? token with
    | none => .ok (⟨first, []⟩, token :: rest)
    | some connective =>
      changed (fun next => ⟨first, (connective, next.first) :: next.more⟩) (outcome (chain rest))

theorem outcome_operand (tokens : List Token) :
    outcome (operand tokens) = andThen (one ofLeaf?) summands tokens := by
  cases tokens with
  | nil =>
      rw [operand]
      rfl
  | cons token rest =>
      cases leaf : ofLeaf? token with
      | none =>
          have stops : one ofLeaf? (token :: rest) = .error (token :: rest) := by simp [one, leaf]
          rw [andThen_of_error stops]
          cases rest <;> simp [operand, leaf]
      | some left =>
          have reads : one ofLeaf? (token :: rest) = .ok (left, rest) := by simp [one, leaf]
          rw [andThen_of_ok reads]
          cases rest with
          | nil => simp [operand, leaf, summands]
          | cons next rest =>
              rw [operand]
              by_cases isPlus : next.isOperator "+" = true
              · simp only [leaf, isPlus, if_true, summands]
                cases operand rest <;> rfl
              · simp only [leaf, isPlus, summands]
                cases led : plusRun? next with
                | none => rfl
                | some run => cases read : ofRun? run <;> simp [read]

theorem outcome_test (tokens : List Token) :
    outcome (test tokens) = andThen (fun tokens => outcome (operand tokens)) relation tokens := by
  rw [test, andThen]
  cases operand tokens with
  | error stuck => rfl
  | ok result =>
      obtain ⟨left, after, shorter⟩ := result
      change _ = relation left after
      cases after with
      | nil => rfl
      | cons token rest =>
          simp only [relation]
          cases nullTest? token with
          | some negated =>
              cases rest with
              | nil => rfl
              | cons word more =>
                  cases found : isMissingWord word <;> simp [one, Option.guard, found]
          | none =>
              cases comparison? token with
              | none => rfl
              | some comparison => cases operand rest <;> rfl

theorem outcome_primary_group {opening : Token} (opens : opening.kind = .openParen)
    (tokens : List Token) :
    outcome (primary (opening :: tokens)) =
      changed (fun inner => .group inner.formula)
        (andThen (fun tokens => outcome (chain tokens)) close tokens) := by
  rw [primary, andThen]
  simp only [opens, if_true]
  cases chain tokens with
  | error stuck => rfl
  | ok result =>
      obtain ⟨inner, after, shorter⟩ := result
      change _ = changed _ (close inner after)
      cases after with
      | nil => rfl
      | cons closing rest =>
          by_cases closes : closing.kind = .closeParen <;> simp [close, one, closes]

theorem outcome_primary_test {tokens : List Token}
    (notOpen : ∀ token ∈ tokens.head?, token.kind ≠ .openParen) :
    outcome (primary tokens) = outcome (test tokens) := by
  match tokens with
  | [] =>
      rw [primary]
      rfl
  | token :: rest =>
      have noGroup : token.kind ≠ .openParen := notOpen token rfl
      rw [primary]
      simp only [noGroup, if_false]

theorem outcome_chain (tokens : List Token) :
    outcome (chain tokens) = andThen (fun tokens => outcome (primary tokens)) links tokens := by
  rw [chain, andThen]
  cases primary tokens with
  | error stuck => rfl
  | ok result =>
      obtain ⟨first, after, shorter⟩ := result
      change _ = links first after
      cases after with
      | nil => rfl
      | cons token rest =>
          simp only [links]
          cases connective? token with
          | none => rfl
          | some connective => cases chain rest <;> rfl

end TableSieve.Formula
