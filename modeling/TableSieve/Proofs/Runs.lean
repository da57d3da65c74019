import TableSieve.Proofs.ParsedNodes
import TableSieve.Proofs.PlusSigns

/-!
Runs of terms. A term is a field name or a number that is one token by itself. A number with a minus
sign or an exponent ends before a plus sign. Other terms with nothing but plus signs between them are
one word, which is read as their sum, unless a plus sign is taken for the sign of an exponent.
-/

namespace TableSieve

open TableSieve.Formula (after?_eq_some_iff)
open TableSieve.Lexeme TableSieve.Number TableSieve.Text

/-! Tokens by themselves. -/

theorem Lexeme.number_of_first {c : Char} {rest after : List Char}
    (same : first c rest = (.number, after)) :
    (afterNegative? (c :: rest)).or (afterScientific? (c :: rest)) = some after := by
  rw [first] at same
  repeat' split at same
  all_goals simp_all

theorem startsNumber_of_number {c : Char} {rest after : List Char}
    (number : (afterNegative? (c :: rest)).or (afterScientific? (c :: rest)) = some after) :
    StartsNumber c ∧ isBlank c = false := by
  rcases Option.or_eq_some_iff.mp number with negative | ⟨_, scientific⟩
  · rw [eq_minus_of_afterNegative? negative]
    exact ⟨startsNumber_minus, by decide⟩
  · obtain ⟨_, _, same, digit⟩ := exists_digit_of_afterScientific? scientific
    obtain ⟨rfl, _⟩ := List.cons.inj same
    exact ⟨startsNumber_of_isDecimalDigit digit, not_isBlank_of_isDecimalDigit digit⟩

theorem lexes_number {c : Char} {word : List Char} (alone : first c word = (.number, [])) :
    Lexes (c :: word) [⟨.number, String.ofList (c :: word)⟩] := by
  have number := Lexeme.number_of_first alone
  obtain ⟨starts, notBlank⟩ := startsNumber_of_number number
  refine lexes_of_first .number notBlank fun rest breaks => starts.first_number ?_
  rw [← List.cons_append, local_number breaks, number]
  rfl

theorem lexes_of_tokenize {token : Token} (alone : tokenize token.text = [token])
    (kind : token.kind = .identifier ∨ token.kind = .number) :
    Lexes token.text.toList [token] := by
  obtain ⟨c, word, chars, nothing, single⟩ := first_of_tokenize alone kind
  rw [chars, ← single]
  rcases (Token.text_ofLexeme_of_kind (single ▸ kind)).1 with isWord | isNumber
  · rw [isWord]
    exact lexes_word (Prod.ext isWord nothing)
  · rw [isNumber]
    exact lexes_number (Prod.ext isNumber nothing)

/-! Terms. -/

namespace Formula

structure Term where
  token : Token
  value : Formula
  alone : tokenize token.text = [token]
  single : token.kind = .identifier ∧ '+' ∉ token.text.toList ∨ token.kind = .number
  atom : ofAtom? token = some value

namespace Term

def chars (term : Term) : List Char :=
  term.token.text.toList

/-- The text is a token by itself also before a plus sign: it has a minus sign or an exponent. -/
def endsToken (term : Term) : Bool :=
  match term.chars with
  | [] => false
  | c :: rest => (first c rest).1 = .number

def isNegative (term : Term) : Bool :=
  term.chars.head? = some '-'

def StartsWord (term : Term) : Prop :=
  '+' ∉ term.chars ∧
    tokenize (term.token.text ++ "+0") = [⟨.identifier, term.token.text ++ "+0"⟩]

/-- Inside a word the text is what it is by itself, and makes no number with a plus sign. -/
structure InWord (term : Term) : Prop where
  parts : term.chars.all isWordPart = true
  noPlus : '+' ∉ term.chars
  ofWord : Token.ofWord term.chars = term.token
  noNumber : isNumberWord (term.chars ++ ['+', '0']) = false

instance (term : Term) : Decidable term.StartsWord :=
  inferInstanceAs (Decidable (_ ∧ _))

instance (term : Term) : Decidable term.InWord :=
  decidable_of_iff (term.chars.all isWordPart = true ∧ '+' ∉ term.chars ∧
      Token.ofWord term.chars = term.token ∧ isNumberWord (term.chars ++ ['+', '0']) = false)
    ⟨fun ⟨parts, noPlus, ofWord, noNumber⟩ => ⟨parts, noPlus, ofWord, noNumber⟩,
      fun ⟨parts, noPlus, ofWord, noNumber⟩ => ⟨parts, noPlus, ofWord, noNumber⟩⟩

def ofName (name : String) (alone : tokenize name = [⟨.identifier, name⟩])
    (noPlus : '+' ∉ name.toList) : Term :=
  ⟨⟨.identifier, name⟩, .field name, alone, .inl ⟨rfl, noPlus⟩, rfl⟩

variable {term : Term}

theorem kind (term : Term) : term.token.kind = .identifier ∨ term.token.kind = .number :=
  term.single.imp_left And.left

theorem lexes (term : Term) : Lexes term.chars [term.token] :=
  lexes_of_tokenize term.alone term.kind

theorem plain (term : Term) : Plain term.token := by
  intro identifier
  have member : term.token ∈ tokenize term.token.text := by simp [term.alone]
  refine ⟨?_, ofWord_of_mem_tokensOf member identifier⟩
  rcases term.single with ⟨_, noPlus⟩ | number
  · exact noPlus
  · rw [number] at identifier
    cases identifier

theorem ofLeaf? (term : Term) : Formula.ofLeaf? term.token = some term.value :=
  (ofLeaf?_eq_ofAtom? term.plain).trans term.atom

theorem chars_ne_nil (term : Term) : term.chars ≠ [] := by
  obtain ⟨c, word, chars, _⟩ := first_of_tokenize term.alone term.kind
  rw [Term.chars, chars]
  exact List.cons_ne_nil c word

theorem number_of_endsToken (ends : term.endsToken = true) :
    (afterNegative? term.chars).or (afterScientific? term.chars) = some [] := by
  obtain ⟨c, word, chars, nothing, _⟩ := first_of_tokenize term.alone term.kind
  change term.chars = c :: word at chars
  have isNumber : (first c word).1 = .number := by simpa [endsToken, chars] using ends
  rw [chars]
  exact Lexeme.number_of_first (Prod.ext isNumber nothing)

theorem tokensOf_plus (ends : term.endsToken = true) (rest : List Char) :
    tokensOf (term.chars ++ '+' :: rest) = term.token :: tokensOf ('+' :: rest) := by
  obtain ⟨c, word, chars, _, single⟩ := first_of_tokenize term.alone term.kind
  change term.chars = c :: word at chars
  have isNumber : (first c word).1 = .number := by simpa [endsToken, chars] using ends
  have number := term.number_of_endsToken ends
  rw [isNumber] at single
  rw [chars] at number ⊢
  obtain ⟨starts, notBlank⟩ := startsNumber_of_number number
  rw [← single]
  exact tokensOf_of_first notBlank (starts.first_number (number_plus number rest))

theorem ofWord_of_not_endsToken (goesOn : term.endsToken = false) :
    Token.ofWord term.chars = term.token := by
  obtain ⟨c, word, chars, _, single⟩ := first_of_tokenize term.alone term.kind
  change term.chars = c :: word at chars
  rcases (Token.text_ofLexeme_of_kind (single ▸ term.kind)).1 with isWord | isNumber
  · rw [isWord] at single
    rw [chars]
    exact single
  · simp [endsToken, chars, isNumber] at goesOn

namespace InWord

theorem isWordPart (inside : term.InWord) : ∀ c ∈ term.chars, isWordPart c = true :=
  List.all_eq_true.mp inside.parts

theorem isNumberWord_eq_false (inside : term.InWord) (more : List Char) :
    isNumberWord (term.chars ++ '+' :: more) = false := by
  obtain ⟨c, word, chars⟩ := List.exists_cons_of_ne_nil term.chars_ne_nil
  have noNumber := inside.noNumber
  rw [chars] at noNumber ⊢
  rw [← Bool.not_eq_true] at noNumber ⊢
  exact fun number => noNumber (isNumberWord_plus number)

end InWord

namespace StartsWord

theorem first_word (starts : term.StartsWord) :
    ∃ c word, term.chars = c :: word ∧ first c (word ++ ['+', '0']) = (.word, []) ∧
      isNumberWord (c :: (word ++ ['+', '0'])) = false := by
  obtain ⟨first, rest, split, single, token⟩ := first_of_tokenize_name starts.2
  obtain ⟨c, word, chars⟩ := List.exists_cons_of_ne_nil term.chars_ne_nil
  rw [String.toList_append] at split
  change term.chars ++ ['+', '0'] = _ at split
  rw [chars, List.cons_append] at split
  obtain ⟨rfl, rfl⟩ := List.cons.inj split
  refine ⟨c, word, chars, single, ?_⟩
  cases number : isNumberWord (c :: (word ++ ['+', '0'])) with
  | false => rfl
  | true =>
      have notName := kind_ofWord_of_isNumberWord number
      rw [token] at notName
      exact absurd rfl notName

theorem notEndsToken (starts : term.StartsWord) : term.endsToken = false := by
  obtain ⟨c, word, chars, single, _⟩ := starts.first_word
  cases ends : term.endsToken with
  | false => rfl
  | true =>
      obtain ⟨_, _, _, _, noNumber, _⟩ := first_eq_word_iff.mp single
      have plus := number_plus (term.number_of_endsToken ends) ['0']
      rw [chars, List.cons_append, noNumber] at plus
      cases plus

theorem inWord (starts : term.StartsWord) : term.InWord := by
  obtain ⟨c, word, chars, single, noNumber⟩ := starts.first_word
  obtain ⟨_, _, _, _, _, whole⟩ := first_eq_word_iff.mp single
  have parts := isWordPart_of_afterWord? whole
  rw [← List.cons_append, ← chars] at parts
  refine ⟨List.all_eq_true.mpr (List.forall_mem_append.mp parts).1, starts.1,
    term.ofWord_of_not_endsToken starts.notEndsToken, ?_⟩
  rw [chars]
  exact noNumber

end StartsWord

end Term

/-! Runs. -/

def prefixed (terms : List Term) : List Char :=
  terms.flatMap fun term => term.chars ++ ['+']

def addOnto (front : List Term) (operand : Formula) : Formula :=
  front.foldr (fun term sum => .sum term.value sum) operand

theorem prefixed_cons (first : Term) (more : List Term) (rest : List Char) :
    prefixed (first :: more) ++ rest = first.chars ++ '+' :: (prefixed more ++ rest) := by
  simp [prefixed]

def IsName (word : List Char) : Prop :=
  ∀ rest, Stops rest →
    tokensOf (word ++ rest) = ⟨.identifier, String.ofList word⟩ :: tokensOf rest

theorem IsName.lexes {word : List Char} (isName : IsName word) :
    Lexes word [⟨.identifier, String.ofList word⟩] :=
  fun rest breaks => isName rest breaks.stops

theorem tokensOf_plus {rest : List Char} (stops : Stops rest) :
    tokensOf ('+' :: rest) = ⟨.operator, "+"⟩ :: tokensOf rest := by
  have noParts : ∀ c ∈ ([] : List Char), isWordPart c = true := by simp
  have tokens := tokensOf_of_first (by decide) (first_plus noParts stops)
  exact tokens

theorem isName_led {run : List Char} (some : run ≠ []) (parts : ∀ c ∈ run, isWordPart c = true) :
    IsName ('+' :: run) := by
  have noNumber : isNumberWord ('+' :: run) = false := by
    have notDigit : isAsciiDigit '+' = false := by decide
    simp [isNumberWord, notDigit]
  have notPlus : '+' :: run ≠ ['+'] := fun same => some (List.cons.inj same).2
  intro rest stops
  rw [← ofWord_of_mem_plus (List.mem_cons_self ..) notPlus noNumber]
  exact tokensOf_of_first (by decide) (first_plus parts stops)

section Runs

variable {front : List Term} {last : Term} (inside : ∀ term ∈ front, term.InWord)

include inside

theorem isWordPart_prefixed : ∀ c ∈ prefixed front, isWordPart c = true := by
  intro c member
  obtain ⟨term, listed, member⟩ := List.mem_flatMap.mp member
  rcases List.mem_append.mp member with member | plus
  · exact (inside term listed).isWordPart c member
  · rw [List.mem_singleton.mp plus]
    decide

theorem noNumber_prefixed (some : front ≠ []) (rest : List Char) :
    isNumberWord (prefixed front ++ rest) = false := by
  obtain ⟨term, more, rfl⟩ := List.exists_cons_of_ne_nil some
  rw [prefixed_cons]
  exact (inside term (List.mem_cons_self ..)).isNumberWord_eq_false _

theorem isName_prefixed (starts : ∀ term ∈ front.head?, term.StartsWord) (some : front ≠ [])
    {word : List Char} (parts : ∀ c ∈ word, isWordPart c = true) :
    IsName (prefixed front ++ word) := by
  have noNumber := noNumber_prefixed inside some word
  obtain ⟨term, more, rfl⟩ := List.exists_cons_of_ne_nil some
  obtain ⟨c, chars, shape, single, _⟩ := (starts term rfl).first_word
  have regroup : prefixed (term :: more) ++ word =
      c :: (chars ++ '+' :: (prefixed more ++ word)) := by
    rw [prefixed_cons, shape, List.cons_append]
  have moreParts : ∀ c ∈ prefixed more ++ word, isWordPart c = true :=
    List.forall_mem_append.mpr
      ⟨isWordPart_prefixed (List.forall_mem_cons.mp inside).2, parts⟩
  have part := (inside term (List.mem_cons_self ..)).isWordPart c (by simp [shape])
  rw [regroup] at noNumber ⊢
  intro rest stops
  rw [← ofWord_of_mem_plus (by simp) (by simp) noNumber]
  exact tokensOf_of_first (not_isBlank_of_isWordPart part) (first_word_plus single moreParts stops)

theorem split_prefixed (rest : List Char) :
    split '+' (prefixed front ++ rest) = front.map Term.chars ++ split '+' rest := by
  induction front with
  | nil => rfl
  | cons term more ih =>
      obtain ⟨termInside, moreInside⟩ := List.forall_mem_cons.mp inside
      rw [prefixed_cons, split_append termInside.noPlus, ih moreInside]
      rfl

theorem mapM_chars :
    ((front.map Term.chars).mapM fun part => ofAtom? (Token.ofWord part)) =
      some (front.map Term.value) := by
  rw [mapM_eq_some_iff, List.map_map, List.map_map]
  refine List.map_congr_left fun term member => ?_
  simp only [Function.comp_apply, (inside term member).ofWord, term.atom]

omit inside in
theorem sumOf?_values (front : List Term) (last : Term) :
    sumOf? (front.map Term.value ++ [last.value]) = some (addOnto front last.value) := by
  induction front with
  | nil => rfl
  | cons term more ih =>
      rw [List.map_cons, List.cons_append, sumOf?, ih]
      · rfl
      · simp

theorem ofRun?_addOnto (lastInside : last.InWord) :
    ofRun? (prefixed front ++ last.chars) = some (addOnto front last.value) := by
  have allInside : ∀ term ∈ front ++ [last], term.InWord :=
    List.forall_mem_append.mpr ⟨inside, List.forall_mem_singleton.mpr lastInside⟩
  by_cases number : isNumberWord (prefixed front ++ last.chars) = true
  · -- A number has no plus sign here, so it is the last term alone.
    have single : front = [] := by
      by_contra some
      rw [noNumber_prefixed inside some] at number
      cases number
    subst single
    rw [ofRun?, if_pos number]
    change ofAtom? (Token.ofWord last.chars) = some last.value
    rw [lastInside.ofWord, last.atom]
  · have parts : split '+' (prefixed front ++ last.chars) = (front ++ [last]).map Term.chars := by
      rw [split_prefixed inside, split_eq_singleton lastInside.noPlus, List.map_append]
      rfl
    have noneEmpty : ((front ++ [last]).map Term.chars).any List.isEmpty = false := by
      rw [List.any_eq_false]
      intro part member
      obtain ⟨term, _, rfl⟩ := List.mem_map.mp member
      simp [term.chars_ne_nil]
    have values := sumOf?_values front last
    rw [ofRun?, if_neg number, parts]
    simp only [noneEmpty, mapM_chars allInside, Bool.false_eq_true, if_false, Option.bind_some]
    rw [List.map_append]
    exact values

theorem ofRun?_prefixed (some : front ≠ []) : ofRun? (prefixed front) = none := by
  have noNumber := noNumber_prefixed inside some []
  have parts := split_prefixed inside []
  rw [List.append_nil] at noNumber parts
  rw [ofRun?, noNumber, parts]
  simp [split]

end Runs

end Formula

end TableSieve
