import TableSieve.Proofs.CellOrder
import TableSieve.Proofs.RuleForms
import TableSieve.Proofs.WrittenTokens

/-!
Integers as keys of conditions. The key is a text, and an integer cell matches it by its number or
by the float nearest to it. So the condition also applies to the other integers with that float,
where a condition on the number itself does not.
-/

namespace TableSieve

open TableSieve.Number TableSieve.Text

namespace Number

theorem toFloat_whole {value : Nat} (small : value < 10 ^ 20) (negative : Bool) :
    (Decimal.mk value 0).toFloat negative = ofRatio negative value 1 := by
  rcases Nat.eq_zero_or_pos value with rfl | positive
  · rfl
  · have short : digitCount value ≤ 20 := length_digitsOf_le small
    rw [Decimal.toFloat]
    simp only [Int.zero_add]
    rw [if_neg (by omega), if_neg (by omega), timesTen, if_pos (by omega)]
    simp [tenTo]

def DecimalText.ofNat (value : Nat) : DecimalText :=
  ⟨digitsOf value, [], [], []⟩

theorem DecimalText.proper_ofNat (value : Nat) : (ofNat value).Proper where
  starts := digitsOf_ne_nil value
  wholeDigits := fun _ member => isAsciiDigit_of_mem_digitsOf member
  fractionDigits := by simp [ofNat]
  powerDigits := by simp [ofNat]
  signed := .inl rfl

theorem DecimalText.chars_ofNat (value : Nat) : (ofNat value).chars = digitsOf value := by
  simp [ofNat, chars, fractionChars, exponentChars]

theorem DecimalText.decimal_ofNat (value : Nat) : (ofNat value).decimal = ⟨value, 0⟩ := by
  simp [ofNat, decimal, exponent, valueOf_digitsOf, valueOf_nil]

theorem readFloat?_intChars {value : Int} (small : value.natAbs < 10 ^ 20) :
    readFloat? (intChars value) = some (ofInt value) := by
  have proper := DecimalText.proper_ofNat value.natAbs
  rw [intChars, ofInt, ← DecimalText.chars_ofNat, ← toFloat_whole small,
    ← DecimalText.decimal_ofNat]
  split
  · rename_i negative
    rw [decide_eq_true negative, readFloat?]
    exact readMagnitude?_of_readDecimal? (DecimalText.readDecimal?_chars proper) true
  · rename_i notNegative
    rw [decide_eq_false notNegative]
    exact DecimalText.readFloat?_chars proper

theorem natAbs_toInt_lt (value : Int64) : value.toInt.natAbs < 10 ^ 20 := by
  have low := value.minValue_le_toInt
  have high := value.toInt_le
  rw [Int64.toInt_minValue] at low
  rw [Int64.toInt_maxValue] at high
  omega

theorem digit_or_minus_of_mem_intChars {value : Int} {c : Char} (member : c ∈ intChars value) :
    isAsciiDigit c = true ∨ c = '-' := by
  rw [intChars] at member
  split at member
  · rcases List.mem_cons.mp member with minus | digit
    · exact .inr minus
    · exact .inl (isAsciiDigit_of_mem_digitsOf digit)
  · exact .inl (isAsciiDigit_of_mem_digitsOf member)

theorem isBare_intText (value : Int) : IsBare (intText value) := by
  have absent {c : Char} (noDigit : isAsciiDigit c = false) (noMinus : c ≠ '-') :
      c ∉ intChars value := fun member => by
    rcases digit_or_minus_of_mem_intChars member with digit | minus
    · rw [digit] at noDigit
      cases noDigit
    · exact noMinus minus
  have solid : ∀ c ∈ intChars value, isBlank c = false := fun c member => by
    rcases digit_or_minus_of_mem_intChars member with digit | rfl
    · exact not_isBlank_of_isDecimalDigit (isDecimalDigit_of_isAsciiDigit digit)
    · decide
  rw [intText]
  refine ⟨?_, ⟨?_, ?_⟩, ?_, ?_⟩ <;> rw [String.toList_ofList]
  · exact absent (by decide) (by decide)
  · exact absent (by decide) (by decide)
  · exact absent (by decide) (by decide)
  · exact fun c first => solid c (List.mem_of_mem_head? first)
  · exact fun c last => solid c (List.mem_of_mem_getLast? last)

theorem ofInt_eq_iff_rank {value other : Int} :
    ofInt value = ofInt other ↔ rank (ofInt value) = rank (ofInt other) := by
  refine ⟨congrArg rank, fun same => ?_⟩
  by_cases zero : rank (ofInt value) = 0
  · have exactZero : IsExact 0 := by decide
    have none : rank (ofInt 0) = 0 := by decide
    rw [eq_of_rank_ofInt (.inr exactZero) (zero.trans none.symm),
      eq_of_rank_ofInt (.inr exactZero) ((same.symm.trans zero).trans none.symm)]
  · exact Cell.eq_of_rank same zero

end Number

theorem sameNumber_ofInt_iff {value other : Int} :
    sameNumber (ofInt value) (ofInt other) = true ↔ ofInt value = ofInt other := by
  simp [sameNumber, isNaN_ofInt, ofInt_eq_iff_rank]

theorem textMatchesInt_intText_iff {key value : Int64} :
    textMatchesInt (intText key.toInt) value = true ↔ ofInt key.toInt = ofInt value.toInt := by
  have bare := isBare_intText key.toInt
  have trimmed : trimChars (intText key.toInt).toList = intChars key.toInt := by
    rw [trimChars_eq_self bare.notLed bare.notTrailed, intText, String.toList_ofList]
  rw [textMatchesInt, readsAs, trimmed, readInt64?_intChars,
    readFloat?_intChars (natAbs_toInt_lt key)]
  simp only [Bool.or_eq_true, decide_eq_true_eq, Option.some.injEq, sameNumber_ofInt_iff]
  exact ⟨fun matched => matched.elim (fun same => same ▸ rfl) id, .inr⟩

theorem mem_dropBlanks {c : Char} {chars : List Char} (member : c ∈ chars)
    (notBlank : isBlank c = false) : c ∈ dropBlanks chars := by
  rw [← List.takeWhile_append_dropWhile (p := isBlank) (l := chars)] at member
  rcases List.mem_append.mp member with dropped | kept
  · rw [List.mem_takeWhile_imp dropped] at notBlank
    cases notBlank
  · exact kept

theorem isBlankText_trim (text : String) : isBlankText (trim text) = isBlankText text := by
  have trimmed : (trim text).toList = trimChars text.toList := String.toList_ofList
  rw [Bool.eq_iff_iff, isBlankText, isBlankText, List.all_eq_true, List.all_eq_true, trimmed]
  constructor
  · intro blank c member
    by_contra notBlank
    rw [Bool.not_eq_true] at notBlank
    have kept : c ∈ trimChars text.toList := List.mem_reverse.mpr
      (mem_dropBlanks (List.mem_reverse.mpr (mem_dropBlanks member notBlank)) notBlank)
    rw [blank c kept] at notBlank
    cases notBlank
  · intro blank c member
    refine blank c ?_
    have inside := (List.dropWhile_sublist isBlank).subset (List.mem_reverse.mp member)
    exact (List.dropWhile_sublist isBlank).subset (List.mem_reverse.mp inside)

/-! Rules with one condition. -/

/-- Another integer with the same nearest float. -/
def Shadows (key value : Int64) : Prop :=
  value ≠ key ∧ ofInt value.toInt = ofInt key.toInt

theorem not_isExact_of_shadows {key value : Int64} (shadows : Shadows key value) :
    ¬IsExact key.toInt ∧ ¬IsExact value.toInt := by
  obtain ⟨different, same⟩ := shadows
  have apart : value.toInt ≠ key.toInt := fun equal => different (Int64.toInt_inj.mp equal)
  exact ⟨Cell.not_isExact_of_rank apart.symm (congrArg rank same.symm),
    Cell.not_isExact_of_rank apart (congrArg rank same)⟩

theorem exists_int_of_accepts {scalar : Scalar} {cell : Cell}
    (integer : CellType.int.accepts cell = true)
    (accepts : (Matcher.equals scalar).accepts cell = true) : ∃ value, cell = .int value := by
  cases cell with
  | int value => exact ⟨value, rfl⟩
  | null => cases accepts
  | float value =>
      cases missing : isNaN value with
      | true => simp [Matcher.accepts, Cell.isMissing, missing] at accepts
      | false => simp [CellType.accepts, Cell.type?, missing] at integer
  | bool | text | date | dateTime => simp [CellType.accepts, Cell.type?] at integer

theorem accepts_text_int (text : String) (value : Int64) :
    (Matcher.equals (.text text)).accepts (.int value) = textMatchesInt text value :=
  rfl

theorem accepts_int_int (key value : Int64) :
    (Matcher.equals (.int key)).accepts (.int value) = decide (key = value) :=
  rfl

namespace Condition

def onText (key : Int64) (allowed : ScalarList) : Condition :=
  ⟨[.equals (.text (intText key.toInt))], allowed.toList.map .ofScalar⟩

def onInteger (key : Int64) (allowed : ScalarList) : Condition :=
  ⟨[.equals (.int key)], allowed.toList.map .ofScalar⟩

variable {field : String} {key : Int64} {allowed : ScalarList}

theorem ofEntry_intText :
    ofEntry (.single field) (intText key.toInt, allowed) = .ok (onText key allowed) := by
  have bare := (isBare_intText key.toInt).unquote_eq
  have notMissing : intText key.toInt ≠ missingWord := by
    intro same
    have member : 'p' ∈ intChars key.toInt := by
      rw [← String.toList_ofList (l := intChars key.toInt), ← intText, same]
      decide
    rcases digit_or_minus_of_mem_intChars member with digit | minus
    · exact absurd digit (by decide)
    · exact absurd minus (by decide)
  have matchers : keyMatchers (.single field) (intText key.toInt) =
      .ok [.equals (.text (intText key.toInt))] := by
    simp [keyMatchers, bare, Matcher.ofScalar, notMissing]
  exact bind_eq_ok_iff.mpr ⟨_, matchers, rfl⟩

theorem ofShape_int :
    ofShape (.single field) ⟨.one (some (.int key)), allowed⟩ = .ok (onInteger key allowed) :=
  rfl

variable {cells : String → Option Cell}

theorem matches_single_iff {matcher : Matcher} {allowed : List Matcher} :
    (Condition.mk [matcher] allowed).Matches [field] cells ↔ matcher.AcceptsField cells field := by
  simp [Matches]

theorem onText_matches_iff
    (integer : ∀ cell, cells field = some cell → CellType.int.accepts cell = true) :
    (onText key allowed).Matches [field] cells ↔
      ∃ value, cells field = some (.int value) ∧ (value = key ∨ Shadows key value) := by
  rw [onText, matches_single_iff]
  constructor
  · rintro ⟨cell, found, accepts⟩
    obtain ⟨value, rfl⟩ := exists_int_of_accepts (integer cell found) accepts
    rw [accepts_text_int, textMatchesInt_intText_iff] at accepts
    exact ⟨value, found, or_iff_not_imp_left.mpr fun different => ⟨different, accepts.symm⟩⟩
  · rintro ⟨value, found, selected⟩
    have rounds : ofInt key.toInt = ofInt value.toInt :=
      selected.elim (fun same => same ▸ rfl) fun shadows => shadows.2.symm
    refine ⟨.int value, found, ?_⟩
    rwa [accepts_text_int, textMatchesInt_intText_iff]

theorem onInteger_matches_iff
    (integer : ∀ cell, cells field = some cell → CellType.int.accepts cell = true) :
    (onInteger key allowed).Matches [field] cells ↔ cells field = some (.int key) := by
  rw [onInteger, matches_single_iff]
  constructor
  · rintro ⟨cell, found, accepts⟩
    obtain ⟨value, rfl⟩ := exists_int_of_accepts (integer cell found) accepts
    rw [accepts_int_int, decide_eq_true_eq] at accepts
    rw [found, accepts]
  · intro found
    refine ⟨.int key, found, ?_⟩
    rw [accepts_int_int, decide_eq_true_eq]

end Condition

namespace CombinationRule

variable {field target text : String} {key : Int64} {allow : Json} {allowed : ScalarList}

theorem of_single (single : SourceFields.ofText? text = some (.single field))
    (hasTarget : isBlankText target = false) (conditions : List Condition) :
    of (.single field) target conditions = .ok ⟨.single field, target, conditions⟩ := by
  obtain ⟨notBlank, rfl⟩ : isBlankText text = false ∧ trim text = field := by
    unfold SourceFields.ofText? at single
    split at single
    · split at single <;> cases single
    · split at single
      · cases single
      · rename_i notBlank
        exact ⟨by simpa using notBlank, by simpa using single⟩
  have named : isBlankText (trim text) = false := by rw [isBlankText_trim, notBlank]
  simp [of, hasTarget, SourceFields.names, named]

theorem readFrom_paired_intText (single : SourceFields.ofText? text = some (.single field))
    (hasTarget : isBlankText target = false) (isAllowance : allow.scalars? = some allowed) :
    ReadFrom ⟨.single field, target, [.onText key allowed]⟩
      (paired text target [(intText key.toInt, allow)]) :=
  readFrom_paired single (.cons ⟨allowed, isAllowance, Condition.ofEntry_intText⟩ .nil)
    (of_single single hasTarget _)

theorem readFrom_named_int (single : SourceFields.ofText? text = some (.single field))
    (hasTarget : isBlankText target = false) (isAllowance : allow.scalars? = some allowed) :
    ReadFrom ⟨.single field, target, [.onInteger key allowed]⟩
      (named (.text field) target [(.int key.toInt, allow)]) := by
  have number : (Json.int key.toInt).scalars? = some (.one (some (.int key))) := by
    simp [Json.scalars?, Json.oneOrMany?, Json.scalar?, int64?_eq_some_iff.mpr rfl]
  exact readFrom_named rfl rfl
    (.cons ⟨_, allowed, number, isAllowance, Condition.ofShape_int⟩ .nil)
    (of_single single hasTarget _)

theorem admits_single_iff {condition : Condition} {cells : String → Option Cell} :
    (CombinationRule.mk (.single field) target [condition]).Admits cells ↔
      (condition.Matches [field] cells →
        ∃ matcher ∈ condition.allowed, matcher.AcceptsField cells target) := by
  simp [Admits, SourceFields.names]

theorem admits_iff_admits_iff {cells : String → Option Cell}
    (integer : ∀ cell, cells field = some cell → CellType.int.accepts cell = true) :
    ((CombinationRule.mk (.single field) target [.onText key allowed]).Admits cells ↔
        (CombinationRule.mk (.single field) target [.onInteger key allowed]).Admits cells) ↔
      ∀ value, cells field = some (.int value) → Shadows key value →
        ∃ matcher ∈ allowed.toList.map Matcher.ofScalar, matcher.AcceptsField cells target := by
  rw [admits_single_iff, admits_single_iff, Condition.onText_matches_iff integer,
    Condition.onInteger_matches_iff integer]
  constructor
  · intro agree value given shadows
    refine agree.mpr (fun isKey => ?_) ⟨value, given, .inr shadows⟩
    rw [given, Option.some.injEq, Cell.int.injEq] at isKey
    exact absurd isKey shadows.1
  · intro allows
    constructor
    · exact fun admits isKey => admits ⟨key, isKey, .inl rfl⟩
    · rintro admits ⟨value, given, rfl | shadows⟩
      · exact admits given
      · exact allows value given shadows

end CombinationRule

namespace Combinations

variable {table : Table}

theorem cells_integer (wellFormed : table.WellFormed) {field : String} {column : Column}
    (found : table.column? field = some column) (integer : column.type = .int) {row : List Cell}
    (member : row ∈ table.rows) :
    ∀ cell, table.onRow row field = some cell → CellType.int.accepts cell = true := by
  intro cell given
  have known := Table.exists_column?_iff.mp ⟨column, found⟩
  rw [wellFormed.onRow_eq_some member known, Option.some.injEq] at given
  have listed : cell ∈ column.cells := by
    rw [wellFormed.cells_eq_map found, ← given]
    exact List.mem_map_of_mem member
  rw [← integer]
  exact wellFormed.cells column (Table.mem_of_column? found).1 cell listed

/-- An integer in a key selects the integers with the same nearest float. These are the integer
itself and, from 2 ^ 53 on, others near to it; the rule filters like the one with the integer as a
number unless it drops a row for one of the others. -/
theorem integer_key_selects (key : Int64) {text field target : String} {allow : Json}
    {allowed : ScalarList} (single : SourceFields.ofText? text = some (.single field))
    (hasTarget : isBlankText target = false) (isAllowance : allow.scalars? = some allowed) :
    let keyed : CombinationRule := ⟨.single field, target, [.onText key allowed]⟩
    let numbered : CombinationRule := ⟨.single field, target, [.onInteger key allowed]⟩
    read (.array [CombinationRule.paired text target [(intText key.toInt, allow)]]) =
      .ok ⟨[keyed]⟩ ∧
    read (.array [CombinationRule.named (.text field) target [(.int key.toInt, allow)]]) =
      .ok ⟨[numbered]⟩ ∧
    (∀ value, Shadows key value → ¬IsExact key.toInt ∧ ¬IsExact value.toInt) ∧
    ∀ (table : Table) (column : Column), table.WellFormed →
      table.column? field = some column → column.type = .int →
      (∀ row ∈ table.rows, (Condition.onText key allowed).Matches [field] (table.onRow row) ↔
        ∃ value, table.onRow row field = some (.int value) ∧ (value = key ∨ Shadows key value)) ∧
      (table.hasColumn target = true → ∃ kept other,
        (Constraint.combinations ⟨[keyed]⟩).apply table = .done kept ∧
        (Constraint.combinations ⟨[numbered]⟩).apply table = .done other ∧
        (kept = other ↔ ∀ row ∈ table.rows, ∀ value,
          table.onRow row field = some (.int value) → Shadows key value →
            ∃ matcher ∈ allowed.toList.map Matcher.ofScalar,
              matcher.AcceptsField (table.onRow row) target)) := by
  intro keyed numbered
  refine ⟨read_array (.cons (CombinationRule.readFrom_paired_intText single hasTarget
      isAllowance) .nil), read_array (.cons (CombinationRule.readFrom_named_int single hasTarget
      isAllowance) .nil), fun value => not_isExact_of_shadows, ?_⟩
  intro table column wellFormed found integer
  have integers {row : List Cell} (member : row ∈ table.rows) :=
    cells_integer wellFormed found integer member
  refine ⟨fun row member => Condition.onText_matches_iff (integers member), fun hasColumn => ?_⟩
  have known : ∀ name ∈ [field] ++ [target], table.hasColumn name = true := by
    have hasField : table.hasColumn field = true := by simp [Table.hasColumn, found]
    simp [hasField, hasColumn]
  have proper : keyed.Proper ∧ numbered.Proper := by
    constructor <;> simp [CombinationRule.Proper, keyed, numbered, Condition.onText,
      Condition.onInteger, SourceFields.arity, SourceFields.names]
  obtain ⟨kept, other, keptDone, otherDone, same⟩ :=
    apply_eq_apply_iff wellFormed proper.1 proper.2 known known
  exact ⟨kept, other, keptDone, otherDone, same.trans (forall₂_congr fun _ member =>
    CombinationRule.admits_iff_admits_iff (integers member))⟩

theorem integer_key_selects_small :
    let keyed : CombinationRule := ⟨.single "s", "t", [.onText 100 (.one (some (.int 1)))]⟩
    let numbered : CombinationRule := ⟨.single "s", "t", [.onInteger 100 (.one (some (.int 1)))]⟩
    let table : Table :=
      ⟨[⟨"s", .int, [.int 100, .int 100, .int 7, .null]⟩,
        ⟨"t", .int, [.int 1, .int 2, .int 2, .int 2]⟩], 4⟩
    let narrowed : Table :=
      ⟨[⟨"s", .int, [.int 100, .int 7, .null]⟩, ⟨"t", .int, [.int 1, .int 2, .int 2]⟩], 3⟩
    SourceFields.ofText? " s" = some (.single "s") ∧ isBlankText "t" = false ∧
      (Json.int 1).scalars? = some (.one (some (.int 1))) ∧
      table.WellFormed ∧ table.column? "s" = some ⟨"s", .int, [.int 100, .int 100, .int 7, .null]⟩ ∧
      read (.array [CombinationRule.paired " s" "t" [("100", .int 1)]]) = .ok ⟨[keyed]⟩ ∧
      (Constraint.combinations ⟨[keyed]⟩).apply table = .done narrowed ∧
      (Constraint.combinations ⟨[numbered]⟩).apply table = .done narrowed := by
  intro keyed numbered table narrowed
  have single : SourceFields.ofText? " s" = some (.single "s") := by decide
  have hasTarget : isBlankText "t" = false := by decide
  have isAllowance : (Json.int 1).scalars? = some (.one (some (.int 1))) := by rfl
  have wellFormed : table.WellFormed := by decide
  have found : table.column? "s" = some ⟨"s", .int, [.int 100, .int 100, .int 7, .null]⟩ := by
    rfl
  have written : intText (100 : Int64).toInt = "100" := by decide +kernel
  obtain ⟨accepted, _, shadowed, agrees⟩ := integer_key_selects 100 single hasTarget isAllowance
  obtain ⟨_, filters⟩ := agrees table _ wellFormed found rfl
  obtain ⟨kept, other, keptDone, otherDone, same⟩ := filters (by decide)
  have small : IsExact (100 : Int64).toInt := by decide
  obtain rfl : kept = other :=
    same.mpr fun _ _ value _ shadows => absurd small (shadowed value shadows).1
  have given : (Constraint.combinations ⟨[numbered]⟩).apply table = .done narrowed := by
    simp only [numbered, table, narrowed]
    rfl
  obtain rfl : kept = narrowed :=
    Except.ok.inj (congrArg Filtering.result (otherDone.symm.trans given))
  rw [written] at accepted
  exact ⟨single, hasTarget, isAllowance, wellFormed, found, accepted, keptDone, otherDone⟩

/-- The key of one integer drops a row that holds another, which the integer as a number keeps. -/
theorem integer_key_selects_neighbour :
    let table : Table :=
      ⟨[⟨"s", .int, [.int 9007199254740992]⟩, ⟨"t", .int, [.int 2]⟩], 1⟩
    ∃ keyed numbered,
      read (.array [CombinationRule.paired "s" "t" [("9007199254740993", .int 1)]]) = .ok keyed ∧
      read (.array [CombinationRule.named (.text "s") "t" [(.int 9007199254740993, .int 1)]]) =
        .ok numbered ∧
      (Constraint.combinations keyed).apply table =
        .done ⟨[⟨"s", .int, []⟩, ⟨"t", .int, []⟩], 0⟩ ∧
      (Constraint.combinations numbered).apply table = .done table := by
  intro table
  let keyed : CombinationRule := ⟨.single "s", "t",
    [⟨[.equals (.text "9007199254740993")], [.equals (.int 1)]⟩]⟩
  let numbered : CombinationRule := ⟨.single "s", "t",
    [⟨[.equals (.int 9007199254740993)], [.equals (.int 1)]⟩]⟩
  have marks : keyed.keptRows table = .ok [false] := by decide +kernel
  have dropped : keyed.apply table = .done ⟨[⟨"s", .int, []⟩, ⟨"t", .int, []⟩], 0⟩ := by
    rw [CombinationRule.apply, marks]
    rfl
  refine ⟨⟨[keyed]⟩, ⟨[numbered]⟩, by rfl, by rfl, ?_, ?_⟩
  · have valid : (Constraint.combinations ⟨[keyed]⟩).validate table = .ok () := by
      simp only [table, keyed]
      rfl
    rw [Constraint.apply, valid]
    simp only [Constraint.filter, Combinations.filter, Filtering.steps, dropped]
    rfl
  · simp only [table, numbered]
    rfl

end Combinations

end TableSieve
