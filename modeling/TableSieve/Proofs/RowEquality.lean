import Mathlib.Data.List.Forall2
import Mathlib.Data.String.Basic
import TableSieve.Proofs.Distinct
import TableSieve.Proofs.MomentText
import TableSieve.Proofs.Positions

/-!
Equal keys and equal rows. Among the cells that one type accepts, a key stands for the value: two
cells share it exactly when both are missing or they compare as equal. So rows have equal keys
exactly when they agree in every column, and dropping repeated rows keeps the first of each class.
-/

namespace TableSieve

open TableSieve.Calendar TableSieve.Number TableSieve.Text

theorem digitChar_injective : ∀ left < 16, ∀ right < 16,
    left.digitChar = right.digitChar → left = right := by
  decide

theorem hexDigits_injective {left right : Nat} (equal : Cell.hexDigits left = Cell.hexDigits right) :
    left = right := by
  have notSingle {front : Nat} {last digit : Char} :
      Nat.toDigits 16 front ++ [last] ≠ [digit] := by
    intro same
    have length := congrArg List.length same
    have positive := List.length_pos_iff.mpr (Nat.toDigits_ne_nil (n := front) (b := 16))
    simp only [List.length_append, List.length_singleton] at length
    omega
  unfold Cell.hexDigits at equal
  induction left using Nat.strongRecOn generalizing right with
  | ind left ih =>
      rw [Nat.toDigits_eq_if (by decide), Nat.toDigits_eq_if (n := right) (by decide)] at equal
      by_cases small : left < 16 <;> by_cases otherSmall : right < 16
      · simp only [small, otherSmall, if_true, List.cons.injEq, and_true] at equal
        exact digitChar_injective left small right otherSmall equal
      · simp only [small, otherSmall, if_true, if_false] at equal
        exact absurd equal.symm notSingle
      · simp only [small, otherSmall, if_true, if_false] at equal
        exact absurd equal notSingle
      · simp only [small, otherSmall, if_false] at equal
        obtain ⟨front, last⟩ := List.append_inj' equal rfl
        have sameFront := ih (left / 16) (by omega) front
        have sameLast := digitChar_injective _ (by omega) _ (by omega) (List.cons.inj last).1
        omega

theorem intText_injective {left right : Int} (equal : intText left = intText right) :
    left = right := by
  have chars : intChars left = intChars right := by
    simpa [intText] using congrArg String.toList equal
  have same := readInt?_intChars left
  rw [chars, readInt?_intChars] at same
  exact (Option.some.inj same).symm

theorem rank_eq_iff_bits (left right : Float) :
    rank left = rank right ↔
      (if rank left = 0 then 0 else left.toBits.toNat) =
        if rank right = 0 then 0 else right.toBits.toNat := by
  have leftBound := left.toBits.toNat_lt
  have rightBound := right.toBits.toNat_lt
  simp only [rank, isNegative, magnitudeBits, decide_eq_true_eq,
    show signBit = 9223372036854775808 by decide]
  split_ifs <;> omega

namespace Cell

def Same (left right : Cell) : Prop :=
  (left.isMissing = true ∧ right.isMissing = true) ∨ left.compare right = some .eq

instance (left right : Cell) : Decidable (left.Same right) :=
  inferInstanceAs (Decidable (_ ∨ _))

theorem key_of_missing {cell : Cell} (missing : cell.isMissing = true) : cell.key = "n:" := by
  cases cell <;> simp_all [isMissing, key]

theorem compare_of_missing {left right : Cell}
    (missing : left.isMissing = true ∨ right.isMissing = true) : left.compare right = none := by
  have noNumber {cell : Cell} (absent : cell.isMissing = true) : cell.number? = none := by
    cases cell <;> simp_all [isMissing, number?]
  have noMoment {cell : Cell} (absent : cell.isMissing = true) : cell.moment? = none := by
    cases cell <;> simp_all [isMissing, moment?]
  have noNumbers : left.compareNumbers right = none := by
    rcases missing with absent | absent <;> simp [compareNumbers, noNumber absent]
  have noMoments : left.compareMoments right = none := by
    rcases missing with absent | absent <;> simp [compareMoments, noMoment absent]
  unfold compare
  split
  · simp [isMissing] at missing
  · simp [isMissing] at missing
  · rw [noNumbers, noMoments]
    rfl

theorem bool_key_eq_iff (left right : Bool) :
    (bool left).key = (bool right).key ↔ (bool left).Same (bool right) := by
  cases left <;> cases right <;> decide

theorem int_key_eq_iff (left right : Int64) :
    (int left).key = (int right).key ↔ (int left).Same (int right) := by
  simp only [key, String.append_right_inj, Same, isMissing, compare, Bool.false_eq_true, and_self,
    false_or, Option.some.injEq, compare_eq_iff_eq]
  exact ⟨intText_injective, congrArg intText⟩

theorem float_key_eq_iff {left right : Float} (leftPresent : isNaN left = false)
    (rightPresent : isNaN right = false) :
    (float left).key = (float right).key ↔ (float left).Same (float right) := by
  simp only [key, leftPresent, rightPresent, Bool.false_eq_true, if_false, Same, isMissing, compare,
    compareNumbers, number?, and_self, false_or, Option.some_or, Option.some.injEq,
    compare_eq_iff_eq, String.append_right_inj, String.ofList_inj, rank_eq_iff_bits left right]
  exact ⟨hexDigits_injective, congrArg hexDigits⟩

theorem text_key_eq_iff (left right : String) :
    (text left).key = (text right).key ↔ (text left).Same (text right) := by
  simp only [Same, isMissing, compare, Bool.false_eq_true, and_self, false_or, Option.some.injEq,
    compare_eq_iff_eq]
  constructor
  · intro equal
    have chars := congrArg String.toList equal
    simp only [toList_key_text, List.cons.injEq, true_and] at chars
    have digits := congrArg (List.takeWhile isAsciiDigit) chars
    rw [takeWhile_digits, takeWhile_digits] at digits
    rw [digits, List.append_cancel_left_eq, List.cons.injEq] at chars
    exact String.toList_inj.mp chars.2
  · intro same
    rw [same]

theorem date_key_eq_iff (left right : Date) :
    (date left).key = (date right).key ↔ (date left).Same (date right) := by
  simp only [key, String.append_right_inj, Same, isMissing, compare, compareNumbers, number?,
    compareMoments, moment?, Bool.false_eq_true, and_self, false_or, Option.none_or,
    Option.some.injEq, compare_eq_iff_eq]
  constructor
  · intro equal
    rw [Date.text_injective equal]
  · intro sameRank
    have same := DateTime.rank_injective sameRank
    exact congrArg (fun moment => moment.date.text) same

theorem dateTime_key_eq_iff (left right : DateTime) :
    (dateTime left).key = (dateTime right).key ↔ (dateTime left).Same (dateTime right) := by
  simp only [key, String.append_right_inj, Same, isMissing, compare, compareNumbers, number?,
    compareMoments, moment?, Bool.false_eq_true, and_self, false_or, Option.none_or,
    Option.some.injEq, compare_eq_iff_eq]
  constructor
  · intro equal
    rw [DateTime.text_injective equal]
  · intro sameRank
    rw [DateTime.rank_injective sameRank]

theorem key_eq_iff {type : CellType} {left right : Cell} (accepted : type.accepts left = true)
    (otherAccepted : type.accepts right = true) : left.key = right.key ↔ left.Same right := by
  by_cases missing : left.isMissing = true
  · constructor
    · intro equal
      exact .inl ⟨missing, isMissing_eq_of_key equal ▸ missing⟩
    · rintro (⟨_, otherMissing⟩ | equal)
      · rw [key_of_missing missing, key_of_missing otherMissing]
      · rw [compare_of_missing (.inl missing)] at equal
        cases equal
  · by_cases otherMissing : right.isMissing = true
    · constructor
      · intro equal
        exact absurd (isMissing_eq_of_key equal ▸ otherMissing) missing
      · rintro (⟨both, _⟩ | equal)
        · exact absurd both missing
        · rw [compare_of_missing (.inr otherMissing)] at equal
          cases equal
    · rw [Bool.not_eq_true] at missing otherMissing
      have sameType : left.type? = right.type? := by
        rw [type?_of_accepts accepted missing, type?_of_accepts otherAccepted otherMissing]
      clear accepted otherAccepted
      cases left <;> cases right <;> simp_all only [type?, isMissing, reduceCtorEq, Bool.true_eq_false,
        Bool.false_eq_true, if_false, Option.some.injEq]
      · exact bool_key_eq_iff _ _
      · exact int_key_eq_iff _ _
      · exact float_key_eq_iff missing otherMissing
      · exact text_key_eq_iff _ _
      · exact date_key_eq_iff _ _
      · exact dateTime_key_eq_iff _ _

end Cell

theorem forall₂_of_mem_transpose {α β : Type} {fits : α → β → Prop} {tags : List α}
    {lists : List (List β)} {size : Nat} {row : List β}
    (fit : List.Forall₂ (fun tag list => ∀ item ∈ list, fits tag item) tags lists)
    (member : row ∈ transpose size lists) : List.Forall₂ fits tags row := by
  induction fit generalizing row with
  | nil =>
      rw [List.eq_of_mem_replicate member]
      exact .nil
  | cons first _ ih =>
      simp only [transpose, List.foldr_cons, ← List.map_uncurry_zip_eq_zipWith,
        List.mem_map] at member
      obtain ⟨⟨item, rest⟩, pair, rfl⟩ := member
      obtain ⟨inFirst, inRest⟩ := List.of_mem_zip pair
      exact .cons (first item inFirst) (ih inRest)

namespace Table

variable {table : Table}

/-- The rows are the same in every column. -/
def SameRow (row other : List Cell) : Prop :=
  List.Forall₂ Cell.Same row other

instance (row other : List Cell) : Decidable (SameRow row other) :=
  inferInstanceAs (Decidable (List.Forall₂ Cell.Same row other))

theorem WellFormed.accepts_of_mem_rows (wellFormed : table.WellFormed) {row : List Cell}
    (member : row ∈ table.rows) :
    List.Forall₂ (fun type cell => type.accepts cell = true) (table.columns.map Column.type) row := by
  refine forall₂_of_mem_transpose ?_ member
  rw [List.forall₂_map_left_iff, List.forall₂_map_right_iff, List.forall₂_same]
  exact wellFormed.cells

theorem keys_eq_iff {types : List CellType} {row other : List Cell}
    (accepted : List.Forall₂ (fun type cell => type.accepts cell = true) types row)
    (otherAccepted : List.Forall₂ (fun type cell => type.accepts cell = true) types other) :
    row.map Cell.key = other.map Cell.key ↔ SameRow row other := by
  induction accepted generalizing other with
  | nil =>
      cases otherAccepted
      simp [SameRow]
  | cons first _ ih =>
      cases otherAccepted with
      | cons otherFirst rest =>
          simp only [SameRow] at ih
          simp only [SameRow, List.map_cons, List.cons.injEq, List.forall₂_cons,
            Cell.key_eq_iff first otherFirst, ih rest]

theorem WellFormed.rowKey_eq_iff (wellFormed : table.WellFormed) {row other : List Cell}
    (member : row ∈ table.rows) (otherMember : other ∈ table.rows) :
    rowKey row = rowKey other ↔ SameRow row other := by
  have sameLength : row.length = other.length := by
    rw [length_of_mem_rows member, length_of_mem_rows otherMember]
  rw [← keys_eq_iff (wellFormed.accepts_of_mem_rows member)
    (wellFormed.accepts_of_mem_rows otherMember)]
  constructor
  · exact rowKey_injective sameLength
  · intro sameKeys
    rw [rowKey, rowKey, sameKeys]

def firstPositions (table : Table) : List Nat :=
  markedPositions (markFirsts (table.rows.map rowKey))

theorem WellFormed.distinct_eq_take (wellFormed : table.WellFormed) :
    table.distinct = table.take table.firstPositions := by
  apply filter_eq_take
  rw [length_markFirsts, List.length_map, wellFormed.length_rows]

theorem WellFormed.mem_firstPositions (wellFormed : table.WellFormed) {position : Nat} :
    position ∈ table.firstPositions ↔ ∃ row, table.rows[position]? = some row ∧
      ∀ other ∈ table.rows.take position, ¬SameRow other row := by
  rw [firstPositions, mem_markedPositions, getElem?_markFirsts]
  simp only [List.getElem?_map, Option.map_eq_some_iff, ← List.map_take, List.mem_map, not_exists,
    not_and]
  have sameKey {row other : List Cell} (found : table.rows[position]? = some row)
      (earlier : other ∈ table.rows.take position) :
      rowKey other = rowKey row ↔ SameRow other row :=
    wellFormed.rowKey_eq_iff (List.mem_of_mem_take earlier) (List.mem_of_getElem? found)
  constructor
  · rintro ⟨_, ⟨row, found, rfl⟩, unseen⟩
    exact ⟨row, found, fun other earlier same =>
      unseen other earlier ((sameKey found earlier).mpr same)⟩
  · rintro ⟨row, found, unseen⟩
    exact ⟨_, ⟨row, found, rfl⟩, fun other earlier equal =>
      unseen other earlier ((sameKey found earlier).mp equal)⟩

theorem WellFormed.exists_first (wellFormed : table.WellFormed) {position : Nat} {row : List Cell}
    (found : table.rows[position]? = some row) :
    ∃ first ≤ position, first ∈ table.firstPositions ∧
      ∃ other, table.rows[first]? = some other ∧ SameRow other row := by
  have same {row other : List Cell} (member : row ∈ table.rows) (otherMember : other ∈ table.rows) :=
    wellFormed.rowKey_eq_iff member otherMember
  have member := List.mem_of_getElem? found
  induction position using Nat.strongRecOn generalizing row with
  | ind position ih =>
      by_cases isFirst : position ∈ table.firstPositions
      · exact ⟨position, Nat.le_refl _, isFirst, row, found, (same member member).mp rfl⟩
      · rw [wellFormed.mem_firstPositions] at isFirst
        push Not at isFirst
        obtain ⟨other, earlier, sameRow⟩ := isFirst row found
        obtain ⟨index, below, rfl⟩ := List.mem_take_iff_getElem.mp earlier
        have inRange : index < table.rows.length := by omega
        have otherFound := List.getElem?_eq_getElem inRange
        have otherMember := List.getElem_mem inRange
        obtain ⟨first, before, kept, original, originalFound, sameOriginal⟩ :=
          ih index (by omega) otherFound otherMember
        have originalMember := List.mem_of_getElem? originalFound
        refine ⟨first, by omega, kept, original, originalFound, ?_⟩
        rw [← same originalMember member, (same originalMember otherMember).mpr sameOriginal]
        exact (same otherMember member).mpr sameRow

theorem WellFormed.distinct_distinct (wellFormed : table.WellFormed) :
    table.distinct.distinct = table.distinct := by
  apply wellFormed.distinct.distinct.eq_of_rows wellFormed.distinct schema_distinct
  rw [rows_distinct, firstsAfter_of_nodup rowKey (nodup_rowKey_distinct table) (by simp)]

/-- Rows have equal keys exactly when they agree in every column, where all missing cells are the
same and so are both zeros. So dropping repeated rows keeps the first of each class of equal rows,
in their order, and nothing is left to drop. -/
theorem WellFormed.distinct_keeps_firsts (wellFormed : table.WellFormed) :
    (∀ row ∈ table.rows, ∀ other ∈ table.rows, rowKey row = rowKey other ↔ SameRow row other) ∧
    (∀ left right : Float, rank left = 0 → rank right = 0 →
      (Cell.float left).Same (.float right)) ∧
    (∀ value : Float, isNaN value = true → Cell.null.Same (.float value)) ∧
    (∃ positions : List Nat, table.distinct = table.take positions ∧
      positions.Pairwise (· < ·) ∧
      (∀ position, position ∈ positions ↔ ∃ row, table.rows[position]? = some row ∧
        ∀ other ∈ table.rows.take position, ¬SameRow other row) ∧
      ∀ position row, table.rows[position]? = some row → position ∉ positions →
        ∃ first ∈ positions, first < position ∧
          ∃ other, table.rows[first]? = some other ∧ SameRow other row) ∧
    table.distinct.rows.Pairwise (fun row other => ¬SameRow row other) ∧
    table.distinct.distinct = table.distinct := by
  refine ⟨fun row member other otherMember => wellFormed.rowKey_eq_iff member otherMember, ?_, ?_,
    ⟨table.firstPositions, wellFormed.distinct_eq_take, markedPositions_ascending _,
      fun position => wellFormed.mem_firstPositions, ?_⟩, ?_, wellFormed.distinct_distinct⟩
  · intro left right leftZero rightZero
    have present {value : Float} (zero : rank value = 0) : isNaN value = false := by
      have none : magnitudeBits value = 0 := by
        unfold rank at zero
        split at zero <;> omega
      simp [isNaN, none]
    rw [← Cell.float_key_eq_iff (present leftZero) (present rightZero)]
    simp [Cell.key, present, leftZero, rightZero]
  · intro value missing
    exact .inl ⟨rfl, missing⟩
  · intro position row found dropped
    obtain ⟨first, before, kept, other, otherFound, same⟩ := wellFormed.exists_first found
    have different : first ≠ position := fun equal => dropped (equal ▸ kept)
    exact ⟨first, kept, by omega, other, otherFound, same⟩
  · have distinct := List.pairwise_map.mp (nodup_rowKey_distinct table)
    refine distinct.imp_of_mem fun member otherMember differ same => differ ?_
    exact (wellFormed.distinct.rowKey_eq_iff member otherMember).mpr same

theorem WellFormed.distinct_keeps_firsts_separator :
    let zero (negative : Bool) : Cell := .float (ofMagnitude negative 0)
    let split : List Cell := [.text "a\x1ft:1:b", .text "c", zero false, .null]
    let other : List Cell := [.text "a", .text "b\x1ft:1:c", zero false, .null]
    let again : List Cell := [.text "a", .text "b\x1ft:1:c", zero true, .float notANumber]
    let table : Table :=
      ⟨[⟨"name", .text, [.text "a\x1ft:1:b", .text "a", .text "a"]⟩,
        ⟨"note", .text, [.text "c", .text "b\x1ft:1:c", .text "b\x1ft:1:c"]⟩,
        ⟨"score", .float, [zero false, zero false, zero true]⟩,
        ⟨"ratio", .float, [.null, .null, .float notANumber]⟩], 3⟩
    table.WellFormed ∧ table.rows = [split, other, again] ∧ rowKey split ≠ rowKey other ∧
      rowKey other = rowKey again ∧ table.distinct.distinct = table.distinct := by
  intro zero split other again table
  have wellFormed : table.WellFormed := by decide
  have rows : table.rows = [split, other, again] := by rfl
  obtain ⟨keys, _, _, _, _, idempotent⟩ := wellFormed.distinct_keeps_firsts
  simp only [rows, List.forall_mem_cons] at keys
  obtain ⟨⟨_, splitOther, _⟩, ⟨_, _, otherAgain, _⟩, _⟩ := keys
  have differs : ¬SameRow split other := by
    decide
  have agrees : SameRow other again := by
    decide
  exact ⟨wellFormed, rows, fun equal => differs (splitOther.mp equal), otherAgain.mpr agrees,
    idempotent⟩

end Table

end TableSieve
