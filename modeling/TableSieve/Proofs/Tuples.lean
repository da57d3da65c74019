import TableSieve.Constraint.Combinations
import TableSieve.Proofs.Grammar

/-!
Tuples in the keys of combination rules. A tuple is read back part by part, whatever the parts are,
as long as nothing in them is taken for notation: no comma, no quotes and no blanks around them.
Parentheses inside a part do no harm, and a part may be empty.
-/

namespace TableSieve

open TableSieve.Formula (between?_eq_some_iff split_append split_eq_singleton)
open TableSieve.Text

theorem trimChars_eq_self {chars : List Char} (notLed : ∀ c ∈ chars.head?, isBlank c = false)
    (notTrailed : ∀ c ∈ chars.getLast?, isBlank c = false) : trimChars chars = chars := by
  have unled {text : List Char} (solid : ∀ c ∈ text.head?, isBlank c = false) :
      dropBlanks text = text := by
    cases text with
    | nil => rfl
    | cons c rest => simp [dropBlanks, solid c rfl]
  rw [trimChars, unled notLed, unled (by simpa using notTrailed), List.reverse_reverse]

theorem unquote_space (chars : List Char) : unquote (' ' :: chars) = unquote chars :=
  rfl

/-- A text that stands for itself in a tuple. -/
structure IsBare (text : String) : Prop where
  noComma : ',' ∉ text.toList
  noQuote : '\'' ∉ text.toList ∧ '"' ∉ text.toList
  notLed : ∀ c ∈ text.toList.head?, isBlank c = false
  notTrailed : ∀ c ∈ text.toList.getLast?, isBlank c = false

theorem isBare_iff {text : String} : IsBare text ↔
    ',' ∉ text.toList ∧ ('\'' ∉ text.toList ∧ '"' ∉ text.toList) ∧
      text.toList.head?.all (!isBlank ·) = true ∧
      text.toList.getLast?.all (!isBlank ·) = true := by
  simp only [Option.all_eq_true, Bool.not_eq_true']
  exact ⟨fun bare => ⟨bare.noComma, bare.noQuote, bare.notLed, bare.notTrailed⟩,
    fun ⟨noComma, noQuote, notLed, notTrailed⟩ => ⟨noComma, noQuote, notLed, notTrailed⟩⟩

-- By `all`: a statement on the characters of an option may be decided by trying every character.
instance : DecidablePred IsBare := fun _ => decidable_of_iff _ isBare_iff.symm

def tupleText (parts : List String) : String :=
  "(" ++ ", ".intercalate parts ++ ")"

theorem IsBare.unquote_eq {text : String} (bare : IsBare text) :
    unquote text.toList = text.toList := by
  have unopened {quote : Char} (absent : quote ∉ text.toList) :
      between? quote quote text.toList = none := by
    rw [Option.eq_none_iff_forall_ne_some]
    intro inner found
    rw [between?_eq_some_iff.mp found] at absent
    exact absent (List.mem_cons_self ..)
  rw [unquote, trimChars_eq_self bare.notLed bare.notTrailed, unopened bare.noQuote.1,
    unopened bare.noQuote.2, Option.getD_none, Option.getD_none]

theorem split_intercalate {first : String} {more : List String}
    (bare : ∀ part ∈ first :: more, IsBare part) :
    split ',' ([',', ' '].intercalate ((first :: more).map String.toList)) =
      first.toList :: more.map fun part => ' ' :: part.toList := by
  -- The space belongs to the piece behind its comma, so that the induction is on what follows.
  have led (front : List Char) (noComma : ',' ∉ front) :
      split ',' (front ++ [',', ' '].intercalate ((first :: more).map String.toList)) =
        (front ++ first.toList) :: more.map fun part => ' ' :: part.toList := by
    induction more generalizing first front with
    | nil =>
        have absent : ',' ∉ front ++ first.toList := by
          simp [noComma, (bare first (List.mem_singleton_self _)).noComma]
        simpa using split_eq_singleton absent
    | cons second more ih =>
        obtain ⟨firstBare, moreBare⟩ := List.forall_mem_cons.mp bare
        have absent : ',' ∉ front ++ first.toList := by simp [noComma, firstBare.noComma]
        have rest := ih moreBare [' '] (by decide)
        have cut := split_append absent
          ([' '] ++ [',', ' '].intercalate ((second :: more).map String.toList))
        rw [rest] at cut
        simpa using cut
  exact led [] (List.not_mem_nil)

theorem tupleParts?_tupleText {parts : List String} (nonempty : parts ≠ [])
    (bare : ∀ part ∈ parts, IsBare part) :
    tupleParts? (tupleText parts).toList = some parts := by
  have shape : (tupleText parts).toList =
      '(' :: ([',', ' '].intercalate (parts.map String.toList) ++ [')']) := by
    simp [tupleText, String.toList_intercalate]
  have trimmed : trimChars (tupleText parts).toList = (tupleText parts).toList := by
    have solid : isBlank '(' = false ∧ isBlank ')' = false := by decide
    apply trimChars_eq_self <;> rw [shape]
    · simpa using solid.1
    · simpa [List.getLast?_cons] using solid.2
  have inside : between? '(' ')' (trimChars (tupleText parts).toList) =
      some ([',', ' '].intercalate (parts.map String.toList)) :=
    between?_eq_some_iff.mpr (trimmed.trans shape)
  cases parts with
  | nil => exact absurd rfl nonempty
  | cons first more =>
      obtain ⟨firstBare, moreBare⟩ := List.forall_mem_cons.mp bare
      have read : ∀ part ∈ more, String.ofList (unquote (' ' :: part.toList)) = part := by
        intro part member
        rw [unquote_space, (moreBare part member).unquote_eq, String.ofList_toList]
      have others : more.map (fun part => String.ofList (unquote (' ' :: part.toList))) = more :=
        (List.map_congr_left read).trans (List.map_id' more)
      rw [tupleParts?, inside, Option.map_some, split_intercalate bare, List.map_cons,
        List.map_map, firstBare.unquote_eq, String.ofList_toList]
      exact congrArg (fun rest => some (first :: rest)) others

theorem tupleText_injective {parts others : List String} (nonempty : parts ≠ [])
    (othersNonempty : others ≠ []) (bare : ∀ part ∈ parts, IsBare part)
    (othersBare : ∀ part ∈ others, IsBare part) (same : tupleText parts = tupleText others) :
    parts = others := by
  have read := tupleParts?_tupleText nonempty bare
  rw [same, tupleParts?_tupleText othersNonempty othersBare] at read
  exact (Option.some.inj read).symm

end TableSieve
