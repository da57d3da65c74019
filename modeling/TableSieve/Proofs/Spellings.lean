import TableSieve.Proofs.OperandTexts
import TableSieve.Proofs.Printing

/-!
Spellings of sums. White space may stand on either side of a plus sign or be left out. What is read
depends on where a plus sign is apart from the terms next to it: on both sides it is a token, in
front only it begins a word, which is the last that is read, and elsewhere it is part of a run, which
is one operand. So spellings agree only if the runs come last.
-/

namespace TableSieve.Formula

open TableSieve.Lexeme (Stops isWordPart)
open TableSieve.Text

/-! Additions. -/

structure Addition where
  before : List Char
  after : List Char
  term : Term
  blankBefore : ∀ c ∈ before, isBlank c = true
  blankAfter : ∀ c ∈ after, isBlank c = true

namespace Addition

def chars (addition : Addition) : List Char :=
  addition.before ++ '+' :: (addition.after ++ addition.term.chars)

def spaced (addition : Addition) : Addition :=
  ⟨[' '], [' '], addition.term, by simp [isBlank], by simp [isBlank]⟩

/-- The plus sign is apart from what stands in front if white space does or the token there has
ended by itself. -/
def apartBefore (ended : Bool) (addition : Addition) : Bool :=
  ended || !addition.before.isEmpty

/-- The plus sign is apart from what stands behind if white space does or a number with a minus
sign. -/
def apartAfter (addition : Addition) : Bool :=
  addition.term.isNegative || !addition.after.isEmpty

def joined (addition : Addition) : Bool :=
  !(addition.apartBefore false || addition.apartAfter)

theorem before_eq_nil (addition : Addition) {ended : Bool}
    (joined : addition.apartBefore ended = false) : addition.before = [] := by
  simp only [apartBefore, Bool.or_eq_false_iff] at joined
  simpa using joined.2

theorem after_eq_nil (addition : Addition) (joined : addition.apartAfter = false) :
    addition.after = [] := by
  simp only [apartAfter, Bool.or_eq_false_iff] at joined
  simpa using joined.2

end Addition

def tailChars (additions : List Addition) : List Char :=
  additions.flatMap Addition.chars

/-- A plus sign that is not apart from the term on a side is part of a word with it. The term in
front is alone if no plus sign has joined it to another one. -/
def JoinsWords (alone : Bool) (previous : Term) : List Addition → Prop
  | [] => True
  | addition :: more =>
    (addition.apartBefore (alone && previous.endsToken) = false → alone = true →
      previous.StartsWord) ∧
    (addition.apartAfter = false → addition.term.InWord) ∧
    JoinsWords addition.apartAfter addition.term more

instance decidableJoinsWords : (alone : Bool) → (previous : Term) → (additions : List Addition) →
    Decidable (JoinsWords alone previous additions)
  | _, _, [] => .isTrue trivial
  | _, _, addition :: more =>
    have := decidableJoinsWords addition.apartAfter addition.term more
    inferInstanceAs (Decidable (_ ∧ _ ∧ _))

def summand? (front : List Term) (last : Term) : List Addition → Option Formula
  | [] => some (addOnto front last.value)
  | addition :: more =>
    if addition.joined then summand? (front ++ [last]) addition.term more else none

def operand? (front : List Term) (last : Term) : List Addition → Option Formula
  | [] => some (addOnto front last.value)
  | addition :: more =>
    match addition.apartBefore (front.isEmpty && last.endsToken), addition.apartAfter with
    | true, true => (operand? [] addition.term more).map (.sum (addOnto front last.value))
    | true, false => (summand? [] addition.term more).map (.sum (addOnto front last.value))
    | false, true => none
    | false, false => operand? (front ++ [last]) addition.term more

theorem append_tailChars (chars : List Char) (addition : Addition) (more : List Addition) :
    chars ++ tailChars (addition :: more) = chars ++ (addition.before ++
      '+' :: (addition.after ++ (addition.term.chars ++ tailChars more))) := by
  simp [tailChars, Addition.chars]

section Runs

variable {front : List Term} {last : Term} {addition : Addition} {more : List Addition}

def runChars (front : List Term) (last : Term) (additions : List Addition) : List Char :=
  prefixed front ++ last.chars ++ tailChars additions

theorem runChars_joined (before : addition.before = []) (after : addition.after = []) :
    runChars front last (addition :: more) = runChars (front ++ [last]) addition.term more := by
  rw [runChars, append_tailChars, before, after]
  simp [runChars, prefixed]

theorem Spells.append_term {chars : List Char} {tokens next : List Token}
    (spells : Spells chars tokens) (ends : ∀ c, isWordPart c = false → EndsBefore chars tokens c)
    (apart : addition.apartAfter = true)
    (nextSpells : Spells (runChars [] addition.term more) next) :
    Spells (chars ++ (addition.after ++ (addition.term.chars ++ tailChars more)))
      (tokens ++ next) := by
  obtain ⟨c, word, shape⟩ := List.exists_cons_of_ne_nil addition.term.chars_ne_nil
  change Spells (addition.term.chars ++ tailChars more) next at nextSpells
  rw [shape, List.cons_append] at nextSpells ⊢
  refine spells.append addition.blankAfter nextSpells fun none => ends c ?_
  have minus : c = '-' := by
    simpa [Addition.apartAfter, none, Term.isNegative, shape] using apart
  rw [minus]
  decide

theorem endsBefore_plus {c : Char} (stop : isWordPart c = false) :
    EndsBefore ['+'] [⟨.operator, "+"⟩] c :=
  fun rest => tokensOf_plus (show Stops (c :: rest) from stop)

theorem endsBefore_of_apartBefore {chars : List Char} {token : Token}
    (ends : front = [] → last.endsToken = true → EndsBefore chars [token] '+')
    (apart : addition.apartBefore (front.isEmpty && last.endsToken) = true)
    (none : addition.before = []) : EndsBefore chars [token] '+' := by
  have ended : front = [] ∧ last.endsToken = true := by
    simpa [Addition.apartBefore, none] using apart
  exact ends ended.1 ended.2

theorem isOperandText_both {value : Option Formula} (isRun : IsRun front last)
    (before : addition.apartBefore (front.isEmpty && last.endsToken) = true)
    (after : addition.apartAfter = true)
    (next : IsOperandText (runChars [] addition.term more) value) :
    IsOperandText (runChars front last (addition :: more))
      (value.map (.sum (addOnto front last.value))) := by
  obtain ⟨token, spells, leaf, ends⟩ := isRun.exists_token
  obtain ⟨tokens, nextSpells, whole⟩ := next
  have plusSpells := spells_plus.append_term (fun _ => endsBefore_plus) after nextSpells
  refine isOperandText_plus whole leaf ?_
  rw [runChars, append_tailChars]
  exact spells.append addition.blankBefore plusSpells (endsBefore_of_apartBefore ends before)

theorem isOperandText_before {value : Option Formula} (isRun : IsRun front last)
    (before : addition.apartBefore (front.isEmpty && last.endsToken) = true)
    (after : addition.after = [])
    (next : IsSummandText ('+' :: runChars [] addition.term more) value) :
    IsOperandText (runChars front last (addition :: more))
      (value.map (.sum (addOnto front last.value))) := by
  obtain ⟨token, spells, leaf, ends⟩ := isRun.exists_token
  obtain ⟨tokens, nextSpells, whole⟩ := next
  refine ⟨token :: tokens, ?_, whole token _ leaf⟩
  rw [runChars, append_tailChars, after]
  exact spells.append addition.blankBefore nextSpells (endsBefore_of_apartBefore ends before)

theorem isOperandText_after (starts : ∀ term ∈ (front ++ [last]).head?, term.StartsWord)
    (inside : ∀ term ∈ front ++ [last], term.InWord) (before : addition.before = [])
    (after : addition.apartAfter = true) {tokens : List Token}
    (nextSpells : Spells (runChars [] addition.term more) tokens) :
    IsOperandText (runChars front last (addition :: more)) none := by
  have isName : IsName (prefixed (front ++ [last]) ++ []) :=
    isName_prefixed inside starts (by simp) (by simp)
  rw [List.append_nil] at isName
  have unread : ofLeaf? ⟨.identifier, String.ofList (prefixed (front ++ [last]))⟩ = none := by
    rw [ofLeaf?_identifier, ofRun?_prefixed inside (by simp)]
  have spells := isName.spells.append_term (fun _ => isName.endsBefore) after nextSpells
  have regroup : runChars front last (addition :: more) = prefixed (front ++ [last]) ++
      (addition.after ++ (addition.term.chars ++ tailChars more)) := by
    rw [runChars, append_tailChars, before]
    simp [prefixed]
  rw [regroup]
  exact isOperandText_none spells unread

theorem isName_run (inside : ∀ term ∈ front ++ [last], term.InWord) :
    IsName ('+' :: (prefixed front ++ last.chars)) := by
  obtain ⟨frontInside, lastInside⟩ := List.forall_mem_append.mp inside
  have parts : ∀ c ∈ prefixed front ++ last.chars, isWordPart c = true :=
    List.forall_mem_append.mpr
      ⟨isWordPart_prefixed frontInside, (lastInside last (by simp)).isWordPart⟩
  exact isName_led (by simp [last.chars_ne_nil]) parts

theorem isSummandText_before (inside : ∀ term ∈ front ++ [last], term.InWord)
    (before : addition.before ≠ []) {tokens : List Token}
    (plusSpells : Spells ('+' :: (addition.after ++ runChars [] addition.term more)) tokens) :
    IsSummandText ('+' :: runChars front last (addition :: more)) none := by
  have spells := (isName_run inside).spells.append addition.blankBefore plusSpells
    fun none => absurd none before
  rw [runChars, append_tailChars]
  exact isSummandText_none spells (plusRun?_identifier _) plusSpells.some

theorem isSummandText_after (inside : ∀ term ∈ front ++ [last], term.InWord)
    (before : addition.before = []) (after : addition.apartAfter = true) {tokens : List Token}
    (nextSpells : Spells (runChars [] addition.term more) tokens) :
    IsSummandText ('+' :: runChars front last (addition :: more)) none := by
  have isName := isName_led (by simp [prefixed]) (isWordPart_prefixed inside)
  have spells := isName.spells.append_term (fun _ => isName.endsBefore) after nextSpells
  have regroup : '+' :: runChars front last (addition :: more) =
      '+' :: prefixed (front ++ [last]) ++
        (addition.after ++ (addition.term.chars ++ tailChars more)) := by
    rw [runChars, append_tailChars, before]
    simp [prefixed]
  rw [regroup]
  exact isSummandText_none spells (plusRun?_identifier _) nextSpells.some

end Runs

def ReadsOperands (additions : List Addition) : Prop :=
  ∀ front last, IsRun front last → JoinsWords front.isEmpty last additions →
    IsOperandText (runChars front last additions) (operand? front last additions)

def ReadsSummands (additions : List Addition) : Prop :=
  ∀ front last, (∀ term ∈ front ++ [last], term.InWord) → JoinsWords false last additions →
    IsSummandText ('+' :: runChars front last additions) (summand? front last additions)

theorem runChars_nil (front : List Term) (last : Term) :
    runChars front last [] = prefixed front ++ last.chars :=
  List.append_nil _

theorem readsOperands_nil : ReadsOperands [] := by
  intro front last isRun _
  obtain ⟨token, spells, leaf, _⟩ := isRun.exists_token
  rw [runChars_nil]
  exact isOperandText_of_leaf spells leaf

theorem readsSummands_nil : ReadsSummands [] := by
  intro front last inside _
  obtain ⟨frontInside, lastInside⟩ := List.forall_mem_append.mp inside
  have text := isSummandText_of_led (isName_run inside).spells (plusRun?_identifier _)
  rw [ofRun?_addOnto frontInside (lastInside last (by simp))] at text
  rw [runChars_nil]
  exact text

section Step

variable {addition : Addition} {more : List Addition} (operands : ReadsOperands more)
  (summands : ReadsSummands more)

include operands in
theorem ReadsOperands.next (after : addition.apartAfter = true)
    (joins : JoinsWords addition.apartAfter addition.term more) :
    IsOperandText (runChars [] addition.term more) (operand? [] addition.term more) := by
  rw [after] at joins
  exact operands [] addition.term (isRun_single addition.term) joins

include summands in
theorem ReadsSummands.next (after : addition.apartAfter = false)
    (inside : addition.apartAfter = false → addition.term.InWord)
    (joins : JoinsWords addition.apartAfter addition.term more) :
    IsSummandText ('+' :: runChars [] addition.term more) (summand? [] addition.term more) := by
  rw [after] at joins
  exact summands [] addition.term (by simpa using inside after) joins

include operands summands

theorem ReadsOperands.cons : ReadsOperands (addition :: more) := by
  rintro front last isRun ⟨starts, inside, joins⟩
  rw [operand?]
  cases before : addition.apartBefore (front.isEmpty && last.endsToken) with
  | true =>
      cases after : addition.apartAfter with
      | true => exact isOperandText_both isRun before after (operands.next after joins)
      | false =>
          exact isOperandText_before isRun before (addition.after_eq_nil after)
            (summands.next after inside joins)
  | false =>
      have noGap := addition.before_eq_nil before
      have lastStarts : front = [] → last.StartsWord := by
        rintro rfl
        exact starts before rfl
      obtain ⟨wordStarts, allInside⟩ := isRun.joined lastStarts
      cases after : addition.apartAfter with
      | true =>
          obtain ⟨tokens, nextSpells, _⟩ := operands.next after joins
          exact isOperandText_after wordStarts allInside noGap after nextSpells
      | false =>
          have noFlag : (front ++ [last]).isEmpty = false := by simp
          rw [runChars_joined noGap (addition.after_eq_nil after)]
          rw [after, ← noFlag] at joins
          exact operands (front ++ [last]) addition.term
            ⟨wordStarts, allInside, fun _ => inside after⟩ joins

theorem ReadsSummands.cons : ReadsSummands (addition :: more) := by
  rintro front last allInside ⟨_, inside, joins⟩
  rw [summand?, Addition.joined]
  cases before : addition.apartBefore false with
  | true =>
      have gap : addition.before ≠ [] := by simpa [Addition.apartBefore] using before
      cases after : addition.apartAfter with
      | true =>
          obtain ⟨tokens, nextSpells, _⟩ := operands.next after joins
          exact isSummandText_before allInside gap
            (spells_plus.append_term (fun _ => endsBefore_plus) after nextSpells)
      | false =>
          obtain ⟨tokens, nextSpells, _⟩ := summands.next after inside joins
          have plusSpells : Spells ('+' :: (addition.after ++ runChars [] addition.term more))
              tokens := by
            rwa [addition.after_eq_nil after]
          exact isSummandText_before allInside gap plusSpells
  | false =>
      have noGap := addition.before_eq_nil before
      cases after : addition.apartAfter with
      | true =>
          obtain ⟨tokens, nextSpells, _⟩ := operands.next after joins
          exact isSummandText_after allInside noGap after nextSpells
      | false =>
          rw [runChars_joined noGap (addition.after_eq_nil after)]
          rw [after] at joins
          have longer : ∀ term ∈ front ++ [last] ++ [addition.term], term.InWord :=
            List.forall_mem_append.mpr ⟨allInside, by simpa using inside after⟩
          exact summands (front ++ [last]) addition.term longer joins

end Step

theorem reads_additions (additions : List Addition) :
    ReadsOperands additions ∧ ReadsSummands additions := by
  induction additions with
  | nil => exact ⟨readsOperands_nil, readsSummands_nil⟩
  | cons addition more ih => exact ⟨ih.1.cons ih.2, .cons ih.1 ih.2⟩

/-! Sums. -/

def sumOf (first : Term) : List Addition → Formula
  | [] => first.value
  | addition :: more => .sum first.value (sumOf addition.term more)

/-- Plus signs that are apart on both sides come first. One that is apart in front only may follow,
and all the others are inside a word. -/
def orderly (alone : Bool) (previous : Term) : List Addition → Bool
  | [] => true
  | addition :: more =>
    if addition.apartAfter then
      addition.apartBefore (alone && previous.endsToken) && orderly true addition.term more
    else more.all Addition.joined

theorem Term.field_or_literal (term : Term) :
    (∃ name, term.value = .field name) ∨ ∃ literal, term.value = .literal literal := by
  obtain ⟨token, value, _, _, atom⟩ := term
  cases ofAtom?_eq_some_iff.mp atom with
  | field => exact .inl ⟨_, rfl⟩
  | _ => exact .inr ⟨_, rfl⟩

theorem Term.isSum_value (term : Term) : term.value.isSum = false := by
  obtain ⟨_, same⟩ | ⟨_, same⟩ := term.field_or_literal <;> rw [same] <;> rfl

theorem Term.nested_value (term : Term) : term.value.nested = term.value := by
  obtain ⟨_, same⟩ | ⟨_, same⟩ := term.field_or_literal <;> rw [same] <;> rfl

theorem nested_addOnto (front : List Term) (operand : Formula) :
    (addOnto front operand).nested = addOnto front operand.nested := by
  induction front with
  | nil => rfl
  | cons term more ih =>
      change (Formula.sum term.value (addOnto more operand)).nested =
        .sum term.value (addOnto more operand.nested)
      rw [nested, ih, term.nested_value, plus_of_not_isSum term.isSum_value]

theorem nested_sumOf (first : Term) (additions : List Addition) :
    (sumOf first additions).nested = sumOf first additions := by
  induction additions generalizing first with
  | nil => exact first.nested_value
  | cons addition more ih =>
      rw [sumOf, nested, ih, first.nested_value, plus_of_not_isSum first.isSum_value]

theorem plus_addOnto (front : List Term) (last : Term) (right : Formula) :
    (addOnto front last.value).plus right = addOnto front (.sum last.value right) := by
  induction front with
  | nil => exact plus_of_not_isSum last.isSum_value right
  | cons term more ih =>
      change Formula.sum term.value ((addOnto more last.value).plus right) =
        .sum term.value (addOnto more (.sum last.value right))
      rw [ih]

theorem addOnto_concat (front : List Term) (last : Term) (operand : Formula) :
    addOnto (front ++ [last]) operand = addOnto front (.sum last.value operand) := by
  simp [addOnto]

theorem summand?_eq_some_iff {front : List Term} {last : Term} {additions : List Addition}
    {value : Formula} :
    summand? front last additions = some value ↔
      additions.all Addition.joined = true ∧ value = addOnto front (sumOf last additions) := by
  induction additions generalizing front last with
  | nil => simp [summand?, sumOf, eq_comm]
  | cons addition more ih =>
      rw [summand?, sumOf, List.all_cons]
      cases addition.joined with
      | true => simp [ih, addOnto_concat]
      | false => simp

theorem nested_sum_addOnto (front : List Term) (last : Term) {operand sum : Formula}
    (nested : operand.nested = sum) :
    (Formula.sum (addOnto front last.value) operand).nested =
      addOnto front (.sum last.value sum) := by
  rw [Formula.nested, nested_addOnto, last.nested_value, nested, plus_addOnto]

theorem nested_of_operand? {front : List Term} {last : Term} {additions : List Addition}
    {value : Formula} (reads : operand? front last additions = some value) :
    value.nested = addOnto front (sumOf last additions) := by
  induction additions generalizing front last value with
  | nil =>
      rw [operand?, Option.some.injEq] at reads
      rw [← reads, nested_addOnto, last.nested_value, sumOf]
  | cons addition more ih =>
      rw [operand?] at reads
      rw [sumOf]
      split at reads
      · obtain ⟨operand, found, rfl⟩ := Option.map_eq_some_iff.mp reads
        exact nested_sum_addOnto front last (ih found)
      · obtain ⟨operand, found, rfl⟩ := Option.map_eq_some_iff.mp reads
        obtain ⟨_, rfl⟩ := summand?_eq_some_iff.mp found
        exact nested_sum_addOnto front last (nested_sumOf addition.term more)
      · cases reads
      · rw [ih reads, addOnto_concat]

/-- Behind the terms of a run the sum nests to the right only if the run has all the terms. -/
theorem operand?_of_run {front : List Term} (some : front ≠ []) {last : Term}
    {additions : List Addition} :
    operand? front last additions = .some (addOnto front (sumOf last additions)) ↔
      additions.all Addition.joined = true := by
  induction additions generalizing front last with
  | nil => simp [operand?, sumOf]
  | cons addition more ih =>
      -- Otherwise the run is the left side of a sum, where one term should be.
      have notLeft (operand : Option Formula) (sum : Formula) :
          operand.map (.sum (addOnto front last.value)) ≠ .some (addOnto front sum) := by
        obtain ⟨term, others, rfl⟩ := List.exists_cons_of_ne_nil some
        intro same
        obtain ⟨_, _, same⟩ := Option.map_eq_some_iff.mp same
        obtain ⟨left, _⟩ := Formula.sum.inj same
        have notSum := term.isSum_value
        rw [← left] at notSum
        cases others <;> cases notSum
      have noFlag : (front.isEmpty && last.endsToken) = false := by simp [some]
      have longer : operand? (front ++ [last]) addition.term more =
          .some (addOnto (front ++ [last]) (sumOf addition.term more)) ↔
            more.all Addition.joined = true := ih (by simp)
      rw [addOnto_concat] at longer
      rw [operand?, sumOf, List.all_cons, noFlag, Addition.joined]
      cases addition.apartBefore false <;> cases addition.apartAfter <;> simp [notLeft, longer]

theorem operand?_eq_sumOf_iff {first : Term} {additions : List Addition} :
    operand? [] first additions = some (sumOf first additions) ↔
      orderly true first additions = true := by
  induction additions generalizing first with
  | nil => simp [operand?, sumOf, orderly, addOnto]
  | cons addition more ih =>
      have run : operand? [first] addition.term more =
          some (addOnto [first] (sumOf addition.term more)) ↔ more.all Addition.joined = true :=
        operand?_of_run (List.cons_ne_nil first [])
      simp only [addOnto, List.foldr_cons, List.foldr_nil] at run
      rw [operand?, sumOf, orderly, List.isEmpty_nil]
      cases addition.apartBefore (true && first.endsToken) <;> cases addition.apartAfter <;>
        simp [addOnto, ih, run, summand?_eq_some_iff]

/-! Spelled sums. -/

structure SpelledSum where
  first : Term
  additions : List Addition

namespace SpelledSum

def text (sum : SpelledSum) : String :=
  String.ofList (sum.first.chars ++ tailChars sum.additions ++ [' ', '>', ' ', '0'])

def formula (sum : SpelledSum) : Formula :=
  aboveZero (sumOf sum.first sum.additions)

def JoinsWords (sum : SpelledSum) : Prop :=
  Formula.JoinsWords true sum.first sum.additions

instance (sum : SpelledSum) : Decidable sum.JoinsWords :=
  inferInstanceAs (Decidable (Formula.JoinsWords _ _ _))

def spaced (sum : SpelledSum) : SpelledSum :=
  ⟨sum.first, sum.additions.map Addition.spaced⟩

variable {sum : SpelledSum}

theorem parse_text_eq_ok_iff (joins : sum.JoinsWords) {formula : Formula} :
    parse sum.text = .ok formula ↔
      (operand? [] sum.first sum.additions).map aboveZero = some formula :=
  ((reads_additions sum.additions).1 [] sum.first (isRun_single sum.first) joins).parse_iff

theorem aboveZero_inj {left right : Formula} : aboveZero left = aboveZero right ↔ left = right := by
  simp [aboveZero]

theorem parse_text_eq_formula_iff (joins : sum.JoinsWords) :
    parse sum.text = .ok sum.formula ↔ orderly true sum.first sum.additions = true := by
  rw [parse_text_eq_ok_iff joins, formula, ← operand?_eq_sumOf_iff]
  simp [Option.map_eq_some_iff, aboveZero_inj]

theorem formula_spaced (sum : SpelledSum) : sum.spaced.formula = sum.formula := by
  have same (first : Term) (additions : List Addition) :
      sumOf first (additions.map Addition.spaced) = sumOf first additions := by
    induction additions generalizing first with
    | nil => rfl
    | cons addition more ih => rw [List.map_cons, sumOf, sumOf, ih, Addition.spaced]
  rw [formula, formula, spaced, same]

theorem joinsWords_spaced (sum : SpelledSum) : sum.spaced.JoinsWords := by
  have apart (alone : Bool) (previous : Term) (additions : List Addition) :
      Formula.JoinsWords alone previous (additions.map Addition.spaced) := by
    induction additions generalizing alone previous with
    | nil => trivial
    | cons addition more ih =>
        exact ⟨by simp [Addition.apartBefore, Addition.spaced],
          by simp [Addition.apartAfter, Addition.spaced], ih _ _⟩
  exact apart true sum.first sum.additions

theorem orderly_spaced (sum : SpelledSum) :
    orderly true sum.spaced.first sum.spaced.additions = true := by
  have apart (previous : Term) (additions : List Addition) :
      orderly true previous (additions.map Addition.spaced) = true := by
    induction additions generalizing previous with
    | nil => rfl
    | cons addition more ih =>
        simp [orderly, Addition.apartBefore, Addition.apartAfter, Addition.spaced, ih]
  exact apart sum.first sum.additions

theorem parse_spaced (sum : SpelledSum) : parse sum.spaced.text = .ok sum.formula := by
  have parsed := (parse_text_eq_formula_iff sum.joinsWords_spaced).mpr sum.orderly_spaced
  rwa [formula_spaced] at parsed

/-- With one space on both sides of every plus sign, terms are read as their sum nested to the
right. In another spelling no plus sign may be taken for the sign of an exponent: if it is not apart
from a term, then the two are part of a word. Then the formula is the same exactly if the plus signs
that are apart on both sides come first, at most one follows that is apart in front only, and the
others are inside a word. Otherwise the text is refused, or its terms are read as a sum that nests
in another way. -/
theorem parse_by_gaps (sum : SpelledSum) :
    parse sum.spaced.text = .ok sum.formula ∧
      (sum.JoinsWords →
        (parse sum.text = parse sum.spaced.text ↔ orderly true sum.first sum.additions = true) ∧
          ∀ formula, parse sum.text = .ok formula → formula.nested = sum.formula) := by
  refine ⟨sum.parse_spaced, fun joins => ⟨?_, fun formula parsed => ?_⟩⟩
  · rw [parse_spaced, parse_text_eq_formula_iff joins]
  · obtain ⟨value, reads, rfl⟩ :=
      Option.map_eq_some_iff.mp ((parse_text_eq_ok_iff joins).mp parsed)
    change aboveZero value.nested = aboveZero _
    rw [nested_of_operand? reads]
    rfl

theorem parse_by_gaps_mixed : ∃ sum : SpelledSum, sum.text = "x +-1 + 2.5 +b+1e5 > 0" ∧
    sum.JoinsWords ∧ parse sum.text = parse sum.spaced.text ∧ parse sum.text = .ok sum.formula := by
  let x := Term.ofName "x" (by decide +kernel) (by decide)
  let negative : Term := ⟨⟨.number, "-1"⟩, .literal (.int (-1)), by decide +kernel, .inr rfl,
    by decide +kernel⟩
  let decimal : Term := ⟨⟨.number, "2.5"⟩, .literal (.float (.ofBits 0x4004000000000000)),
    by decide +kernel, .inr rfl, by decide +kernel⟩
  let b := Term.ofName "b" (by decide +kernel) (by decide)
  let power : Term := ⟨⟨.number, "1e5"⟩, .literal (.float (.ofBits 0x40F86A0000000000)),
    by decide +kernel, .inr rfl, by decide +kernel⟩
  let sum : SpelledSum := ⟨x, [⟨[' '], [], negative, by simp [isBlank], by simp⟩,
    ⟨[' '], [' '], decimal, by simp [isBlank], by simp [isBlank]⟩,
    ⟨[' '], [], b, by simp [isBlank], by simp⟩, ⟨[], [], power, by simp, by simp⟩]⟩
  have joins : sum.JoinsWords := by decide +kernel
  obtain ⟨parsed, spelled⟩ := sum.parse_by_gaps
  have same := (spelled joins).1.mpr (by decide)
  exact ⟨sum, by decide +kernel, joins, same, same.trans parsed⟩

/-- Behind `a +b` the parser takes no more plus signs. -/
theorem parse_text_ne_spaced : ∃ sum : SpelledSum, sum.text = "a +b + c > 0" ∧
    parse sum.text = .error (.trailingInput "+") ∧ parse sum.spaced.text = .ok sum.formula := by
  let a := Term.ofName "a" (by decide +kernel) (by decide)
  let b := Term.ofName "b" (by decide +kernel) (by decide)
  let c := Term.ofName "c" (by decide +kernel) (by decide)
  let sum : SpelledSum := ⟨a, [⟨[' '], [], b, by simp [isBlank], by simp⟩,
    ⟨[' '], [' '], c, by simp [isBlank], by simp [isBlank]⟩]⟩
  have text : sum.text = "a +b + c > 0" := by decide +kernel
  have tokens : tokenize sum.text = [⟨.identifier, "a"⟩, ⟨.identifier, "+b"⟩, ⟨.operator, "+"⟩,
      ⟨.identifier, "c"⟩, ⟨.operator, ">"⟩, ⟨.number, "0"⟩] := by
    rw [text]
    decide +kernel
  have notBlank : (trimChars sum.text.toList).isEmpty = false := by
    rw [text]
    decide +kernel
  refine ⟨sum, text, ?_, sum.parse_spaced⟩
  rw [parse, notBlank, tokens]
  cbv

end SpelledSum

end TableSieve.Formula
