import TableSieve.Csv.Column
import TableSieve.Proofs.Appending
import TableSieve.Proofs.MomentReading

/-!
Columns read back from their cells. What is written for a present cell is read as that cell by its
own type and refused by every type that is tried before, so a column of them gets its type again. A
missing cell is written as nothing: NaN comes back as null, and a column of nothing else as integers.
-/

namespace TableSieve.Csv

open TableSieve.Calendar TableSieve.Number TableSieve.Text

/-! Cells. -/

def narrower (type : CellType) : List CellType :=
  candidateTypes.takeWhile fun other => other ≠ type

/-- The text of the cell is read as the cell, and by no narrower type. -/
structure ReadsBack (type : CellType) (cell : Cell) : Prop where
  unmarked : missingMarks.contains (cellText cell) = false
  reads : readPresent? type (cellText cell) = some cell
  refused : ∀ other ∈ narrower type, readPresent? other (cellText cell) = none

theorem not_marked_of_digit {text : String} {c : Char} (member : c ∈ text.toList)
    (digit : isAsciiDigit c = true) : missingMarks.contains text = false := by
  have noDigits : (missingMarks.any fun mark => mark.toList.any isAsciiDigit) = false := by decide
  cases marked : missingMarks.contains text with
  | false => rfl
  | true =>
      have digits := List.any_eq_false.mp noDigits text (List.contains_iff_mem.mp marked)
      exact absurd (List.any_eq_true.mpr ⟨c, member, digit⟩) digits

theorem exists_digit_intChars (value : Int) : ∃ c ∈ intChars value, isAsciiDigit c = true := by
  obtain ⟨c, member⟩ := List.exists_mem_of_ne_nil _ (digitsOf_ne_nil value.natAbs)
  refine ⟨c, ?_, isAsciiDigit_of_mem_digitsOf member⟩
  rw [intChars]
  split
  · exact List.mem_cons_of_mem _ member
  · exact member

theorem readsBack_int (value : Int64) : ReadsBack .int (.int value) := by
  have text : (cellText (.int value)).toList = intChars value.toInt := String.toList_ofList
  obtain ⟨c, member, digit⟩ := exists_digit_intChars value.toInt
  refine ⟨not_marked_of_digit (text ▸ member) digit, ?_, by simp [narrower, candidateTypes]⟩
  rw [readPresent?, text, readInt64?_intChars, Option.map_some]

theorem narrower_float : narrower .float = [.int] := by
  decide

theorem cellText_float {value : Float} (number : isNaN value = false) :
    (cellText (.float value)).toList = Layout.literal.chars value := by
  rw [cellText, if_neg (by simp [number]), Layout.text, String.toList_ofList]

theorem exists_digit_literal {value : Float} (finite : isFinite value = true) :
    ∃ c ∈ Layout.literal.chars value, isAsciiDigit c = true := by
  obtain ⟨c, rest, shape, digit⟩ :=
    (Layout.literal.proper_magnitudeText (magnitudeBits value)).exists_chars
  refine ⟨c, ?_, digit⟩
  rw [Layout.literal.chars_eq finite, shape]
  split <;> simp

theorem readsBack_finite {value : Float} (number : isNaN value = false)
    (finite : isFinite value = true) : ReadsBack .float (.float value) := by
  have text := cellText_float number
  obtain ⟨c, member, digit⟩ := exists_digit_literal finite
  refine ⟨not_marked_of_digit (text ▸ member) digit, ?_, ?_⟩
  · rw [readPresent?, text, Layout.literal.readFloat?_chars finite, Option.map_some]
  · intro other tried
    rw [narrower_float, List.mem_singleton] at tried
    rw [tried, readPresent?, text, readInt64?_literal finite, Option.map_none]

theorem eq_infinity {value : Float} (number : isNaN value = false)
    (infinite : isFinite value = false) : value = infinity (isNegative value) := by
  simp only [isNaN, isFinite, decide_eq_false_iff_not] at number infinite
  have bits : magnitudeBits value = infinityBits := by omega
  have same := ofMagnitude_magnitudeBits value
  rw [bits] at same
  exact same.symm

theorem readsBack_infinity (negative : Bool) : ReadsBack .float (.float (infinity negative)) := by
  have text : cellText (.float (infinity negative)) = if negative then "-inf" else "inf" := by
    cases negative <;> decide +kernel
  cases negative with
  | false => exact ⟨by decide +kernel, by rw [text]; rfl, by rw [text]; decide +kernel⟩
  | true => exact ⟨by decide +kernel, by rw [text]; rfl, by rw [text]; decide +kernel⟩

theorem readsBack_bool (value : Bool) : ReadsBack .bool (.bool value) := by
  cases value <;> constructor <;> decide +kernel

theorem readBool?_of_hyphen {text : String} (member : '-' ∈ text.toList) :
    readBool? text = none := by
  have kept : '-' ∈ (String.ofList (text.toList.map Char.toLower)).toList := by
    rw [String.toList_ofList]
    exact List.mem_map.mpr ⟨'-', member, by decide⟩
  have unnamed {name : String} (absent : '-' ∉ name.toList) :
      String.ofList (text.toList.map Char.toLower) ≠ name := by
    rintro rfl
    exact absent kept
  simp only [readBool?]
  rw [if_neg (unnamed (by decide)), if_neg (unnamed (by decide))]

theorem refused_of_isHyphenated {text : String} (hyphenated : IsHyphenated text.toList) :
    ∀ other ∈ [CellType.int, .float, .bool], readPresent? other text = none := by
  obtain ⟨notInt, notFloat⟩ := hyphenated.not_number
  have notBool := readBool?_of_hyphen hyphenated.hyphen_mem
  simp [readPresent?, notInt, notFloat, notBool]

theorem not_marked_of_isHyphenated {text : String} (hyphenated : IsHyphenated text.toList) :
    missingMarks.contains text = false := by
  obtain ⟨sign, digits, rest, shape, _, some, allDigits⟩ := hyphenated
  obtain ⟨c, member⟩ := List.exists_mem_of_ne_nil _ some
  exact not_marked_of_digit (by simp [shape, member]) (allDigits c member)

theorem narrower_date : narrower .date = [.int, .float, .bool] := by
  decide

theorem narrower_dateTime : narrower .dateTime = [.int, .float, .bool] ++ [.date] := by
  decide

theorem readsBack_date (value : Date) : ReadsBack .date (.date value) := by
  have text : (cellText (.date value)).toList = value.chars := String.toList_ofList
  have hyphenated : IsHyphenated (cellText (.date value)).toList := by
    rw [text, ← List.append_nil value.chars]
    exact isHyphenated_chars value []
  refine ⟨not_marked_of_isHyphenated hyphenated, ?_, ?_⟩
  · rw [readPresent?, text, readDate_chars]
    rfl
  · rw [narrower_date]
    exact refused_of_isHyphenated hyphenated

theorem readsBack_dateTime {value : DateTime} (whole : value.time.IsWhole) :
    ReadsBack .dateTime (.dateTime value) := by
  have text : (cellText (.dateTime value)).toList = value.secondChars := String.toList_ofList
  have hyphenated : IsHyphenated (cellText (.dateTime value)).toList := by
    rw [text]
    exact isHyphenated_chars value.date _
  refine ⟨not_marked_of_isHyphenated hyphenated, ?_, ?_⟩
  · rw [readPresent?, text, readAnyDateTime?_secondChars whole, Option.map_some]
  · rw [narrower_dateTime]
    refine List.forall_mem_append.mpr ⟨refused_of_isHyphenated hyphenated, ?_⟩
    rw [List.forall_mem_singleton, readPresent?, text, readDate_secondChars]
    rfl

theorem readsBack_of_readPresent? {type : CellType} {text : String} {cell : Cell}
    (read : readPresent? type text = some cell) (notText : type ≠ .text)
    (present : cell.isMissing = false) : ReadsBack type cell := by
  cases type with
  | text => exact absurd rfl notText
  | int =>
      obtain ⟨value, _, rfl⟩ := Option.map_eq_some_iff.mp read
      exact readsBack_int value
  | bool =>
      obtain ⟨value, _, rfl⟩ := Option.map_eq_some_iff.mp read
      exact readsBack_bool value
  | date =>
      obtain ⟨value, _, rfl⟩ := Option.map_eq_some_iff.mp read
      exact readsBack_date value
  | dateTime =>
      obtain ⟨value, found, rfl⟩ := Option.map_eq_some_iff.mp read
      exact readsBack_dateTime (isWhole_of_readAnyDateTime? found)
  | float =>
      obtain ⟨value, _, rfl⟩ := Option.map_eq_some_iff.mp read
      cases finite : isFinite value with
      | true => exact readsBack_finite present finite
      | false => exact eq_infinity present finite ▸ readsBack_infinity (isNegative value)

/-! Types. -/

theorem fitsAll_text (texts : List String) : fitsAll texts .text = true := by
  rw [fitsAll, List.all_eq_true]
  intro text _
  rw [readCell?]
  split <;> rfl

theorem fitsAll_typeOf (texts : List String) : fitsAll texts (typeOf texts) = true := by
  rw [typeOf]
  cases found : candidateTypes.find? (fitsAll texts) with
  | none => exact fitsAll_text texts
  | some type => exact List.find?_some found

theorem candidateTypes_eq (type : CellType) :
    ∃ wider, candidateTypes = narrower type ++ type :: wider := by
  cases type <;> exact ⟨_, rfl⟩

theorem typeOf_eq {texts : List String} {type : CellType} (fits : fitsAll texts type = true)
    (refused : ∀ other ∈ narrower type, fitsAll texts other = false) : typeOf texts = type := by
  obtain ⟨wider, order⟩ := candidateTypes_eq type
  have none : (narrower type).find? (fitsAll texts) = none :=
    List.find?_eq_none.mpr fun other tried => by simp [refused other tried]
  rw [typeOf, order, List.find?_append, none, Option.none_or, List.find?_cons_of_pos fits,
    Option.getD_some]

theorem refused_typeOf (texts : List String) :
    ∀ other ∈ narrower (typeOf texts), fitsAll texts other = false := by
  obtain ⟨wider, order⟩ := candidateTypes_eq (typeOf texts)
  cases found : (narrower (typeOf texts)).find? (fitsAll texts) with
  | none => exact fun other tried => by simpa using List.find?_eq_none.mp found other tried
  | some other =>
      have chosen : typeOf texts = other := by
        rw [typeOf, order, List.find?_append, found, Option.some_or, Option.getD_some]
      have different := List.mem_takeWhile_imp (List.mem_of_find?_eq_some found)
      simp [chosen] at different

theorem fitsAll_eq_false_iff {texts : List String} {type : CellType} :
    fitsAll texts type = false ↔
      ∃ text ∈ texts, missingMarks.contains text = false ∧ readPresent? type text = none := by
  rw [fitsAll, List.all_eq_false]
  refine exists_congr fun text => and_congr_right fun _ => ?_
  rw [readCell?]
  cases missingMarks.contains text <;> simp

/-! Columns. -/

def cellOf (type : CellType) (text : String) : Cell :=
  (readCell? type text).getD .null

theorem accepts_of_readPresent? {type : CellType} {text : String} {cell : Cell}
    (read : readPresent? type text = some cell) : type.accepts cell = true := by
  cases type with
  | float =>
      obtain ⟨value, _, rfl⟩ := Option.map_eq_some_iff.mp read
      simp only [CellType.accepts, Cell.type?]
      cases isNaN value <;> rfl
  | text => exact Option.some.inj read ▸ rfl
  | int | bool | date | dateTime =>
      obtain ⟨value, _, rfl⟩ := Option.map_eq_some_iff.mp read
      rfl

theorem readPresent?_ne_null {type : CellType} {text : String} :
    readPresent? type text ≠ some .null := by
  cases type <;> simp [readPresent?]

theorem cellOf_marked {text : String} (marked : missingMarks.contains text = true)
    (type : CellType) : cellOf type text = .null := by
  rw [cellOf, readCell?, if_pos marked, Option.getD_some]

theorem cellOf_unmarked {text : String} (unmarked : missingMarks.contains text = false)
    (type : CellType) : cellOf type text = (readPresent? type text).getD .null := by
  simp only [cellOf, readCell?, unmarked, Bool.false_eq_true, if_false]

theorem accepts_cellOf (type : CellType) (text : String) :
    type.accepts (cellOf type text) = true := by
  cases marked : missingMarks.contains text with
  | true => rw [cellOf_marked marked]; rfl
  | false =>
      rw [cellOf_unmarked marked]
      cases read : readPresent? type text with
      | none => rfl
      | some cell => exact accepts_of_readPresent? read

theorem columnOf_eq_ok (name : String) (texts : List String) :
    columnOf name texts = .ok ⟨name, typeOf texts, texts.map (cellOf (typeOf texts))⟩ := by
  refine Column.ofCells_eq_ok_iff.mpr ⟨_, Column.mapM_cast?_of_accepts ?_, rfl⟩
  intro cell member
  obtain ⟨text, _, rfl⟩ := List.mem_map.mp member
  exact accepts_cellOf _ text

theorem cellText_of_isMissing {cell : Cell} (missing : cell.isMissing = true) :
    cellText cell = "" := by
  cases cell with
  | null => rfl
  | float value => exact if_pos missing
  | int | bool | text | date | dateTime => cases missing

theorem cellOf_text {text : String} (unmarked : missingMarks.contains text = false) :
    cellOf .text text = .text text := by
  rw [cellOf_unmarked unmarked, readPresent?, Option.getD_some]

theorem readPresent?_of_present {type : CellType} {text : String}
    (present : (cellOf type text).isMissing = false) :
    missingMarks.contains text = false ∧ readPresent? type text = some (cellOf type text) := by
  cases marked : missingMarks.contains text with
  | true =>
      rw [cellOf_marked marked] at present
      cases present
  | false =>
      rw [cellOf_unmarked marked] at present ⊢
      cases read : readPresent? type text with
      | none =>
          rw [read] at present
          cases present
      | some cell => exact ⟨rfl, rfl⟩

theorem readPresent?_cellText {type : CellType} {text : String}
    (present : (cellOf type text).isMissing = false) :
    missingMarks.contains (cellText (cellOf type text)) = false ∧
      readPresent? type (cellText (cellOf type text)) = some (cellOf type text) := by
  obtain ⟨unmarked, read⟩ := readPresent?_of_present present
  by_cases isText : type = .text
  · subst isText
    rw [cellOf_text unmarked]
    exact ⟨unmarked, rfl⟩
  · have readsBack := readsBack_of_readPresent? read isText present
    exact ⟨readsBack.unmarked, readsBack.reads⟩

def nullIfMissing (cell : Cell) : Cell :=
  if cell.isMissing then .null else cell

theorem readCell?_cellText (type : CellType) (text : String) :
    readCell? type (cellText (cellOf type text)) = some (nullIfMissing (cellOf type text)) := by
  cases missing : (cellOf type text).isMissing with
  | true =>
      rw [cellText_of_isMissing missing, nullIfMissing, if_pos missing]
      rfl
  | false =>
      obtain ⟨unmarked, read⟩ := readPresent?_cellText missing
      simp only [readCell?, unmarked, read, nullIfMissing, missing, Bool.false_eq_true, if_false]

theorem cellOf_cellText (type : CellType) (text : String) :
    cellOf type (cellText (cellOf type text)) = nullIfMissing (cellOf type text) := by
  rw [cellOf, readCell?_cellText, Option.getD_some]

theorem fitsAll_cellTexts (type : CellType) (texts : List String) :
    fitsAll (texts.map fun text => cellText (cellOf type text)) type = true := by
  rw [fitsAll, List.all_map, List.all_eq_true]
  intro text _
  simp [readCell?_cellText]

theorem typeOf_cellTexts_of_missing {type : CellType} {texts : List String}
    (missing : ∀ text ∈ texts, (cellOf type text).isMissing = true) :
    typeOf (texts.map fun text => cellText (cellOf type text)) = .int := by
  refine typeOf_eq ?_ (by simp [narrower, candidateTypes])
  rw [fitsAll, List.all_map, List.all_eq_true]
  intro text member
  rw [Function.comp_apply, cellText_of_isMissing (missing text member)]
  rfl

theorem typeOf_cellTexts_of_present {texts : List String} {text : String} (member : text ∈ texts)
    (present : (cellOf (typeOf texts) text).isMissing = false) :
    typeOf (texts.map fun text => cellText (cellOf (typeOf texts) text)) = typeOf texts := by
  refine typeOf_eq (fitsAll_cellTexts _ texts) fun other tried => fitsAll_eq_false_iff.mpr ?_
  by_cases isText : typeOf texts = .text
  · -- Texts are written as they are, so what refused a narrower type still does.
    obtain ⟨refused, listed, unmarked, unread⟩ :=
      fitsAll_eq_false_iff.mp (refused_typeOf texts other tried)
    refine ⟨refused, List.mem_map.mpr ⟨refused, listed, ?_⟩, unmarked, unread⟩
    rw [isText, cellOf_text unmarked]
    rfl
  · obtain ⟨_, read⟩ := readPresent?_of_present present
    have readsBack := readsBack_of_readPresent? read isText present
    exact ⟨_, List.mem_map.mpr ⟨text, member, rfl⟩, readsBack.unmarked,
      readsBack.refused other tried⟩

theorem typeOf_of_nulls {texts : List String}
    (nulls : ∀ text ∈ texts, cellOf (typeOf texts) text = .null) : typeOf texts = .int := by
  refine typeOf_eq ?_ (by simp [narrower, candidateTypes])
  have fits := List.all_eq_true.mp (fitsAll_typeOf texts)
  rw [fitsAll, List.all_eq_true]
  intro text member
  cases marked : missingMarks.contains text with
  | true => simp only [readCell?, marked, if_true, Option.isSome_some]
  | false =>
      -- A text that is no mark is read as a present cell or as NaN.
      obtain ⟨cell, read⟩ := Option.isSome_iff_exists.mp (fits text member)
      have null := nulls text member
      rw [cellOf, read, Option.getD_some] at null
      subst null
      simp only [readCell?, marked, Bool.false_eq_true, if_false] at read
      exact absurd read readPresent?_ne_null

theorem nullIfMissing_eq_self_iff {cell : Cell} :
    nullIfMissing cell = cell ↔ ∀ value, cell = .float value → isNaN value = false := by
  unfold nullIfMissing
  cases cell with
  | float value => cases missing : isNaN value <;> simp [Cell.isMissing, missing]
  | null | int | bool | text | date | dateTime => simp [Cell.isMissing]

theorem columnOf_cellTexts (name : String) (texts : List String) :
    columnOf name ((texts.map (cellOf (typeOf texts))).map cellText) =
      .ok ⟨name,
        if (texts.map (cellOf (typeOf texts))).all Cell.isMissing then .int else typeOf texts,
        (texts.map (cellOf (typeOf texts))).map nullIfMissing⟩ := by
  rw [columnOf_eq_ok, List.map_map, List.map_map, List.map_map]
  cases all : (texts.map (cellOf (typeOf texts))).all Cell.isMissing with
  | true =>
      have missing : ∀ text ∈ texts, (cellOf (typeOf texts) text).isMissing = true := by
        simpa using all
      have type : typeOf (texts.map (cellText ∘ cellOf (typeOf texts))) = .int :=
        typeOf_cellTexts_of_missing missing
      have cells : ∀ text ∈ texts, cellOf .int (cellText (cellOf (typeOf texts) text)) =
          nullIfMissing (cellOf (typeOf texts) text) := by
        intro text member
        rw [cellText_of_isMissing (missing text member), nullIfMissing,
          if_pos (missing text member)]
        rfl
      rw [type, if_pos rfl]
      congr 2
      exact List.map_congr_left cells
  | false =>
      obtain ⟨text, member, present⟩ : ∃ text ∈ texts,
          (cellOf (typeOf texts) text).isMissing = false := by
        simpa using all
      have type : typeOf (texts.map (cellText ∘ cellOf (typeOf texts))) = typeOf texts :=
        typeOf_cellTexts_of_present member present
      rw [type, if_neg Bool.false_ne_true]
      congr 2
      exact List.map_congr_left fun text _ => cellOf_cellText (typeOf texts) text

/-- Every list of texts makes a column, and the column is read back from its cells but for NaN: it is
null then, and where no cell is present the column is one of integers. -/
theorem columnOf_reads_back (name : String) (texts : List String) :
    ∃ column again, columnOf name texts = .ok column ∧
      columnOf name (column.cells.map cellText) = .ok again ∧
      again = ⟨name, if column.allMissing then .int else column.type,
        column.cells.map nullIfMissing⟩ ∧
      (again = column ↔ ∀ value, .float value ∈ column.cells → isNaN value = false) := by
  refine ⟨_, _, columnOf_eq_ok name texts, columnOf_cellTexts name texts, rfl, ?_⟩
  simp only [Column.mk.injEq, true_and]
  constructor
  · rintro ⟨_, cells⟩ value member
    have same := List.map_inj_left.mp (cells.trans (List.map_id' _).symm) _ member
    exact nullIfMissing_eq_self_iff.mp same value rfl
  · intro numbers
    have same : ∀ cell ∈ texts.map (cellOf (typeOf texts)), nullIfMissing cell = cell :=
      fun cell member => nullIfMissing_eq_self_iff.mpr fun value isFloat =>
        numbers value (isFloat ▸ member)
    refine ⟨?_, (List.map_congr_left same).trans (List.map_id' _)⟩
    split
    · rename_i missing
      refine (typeOf_of_nulls fun text member => ?_).symm
      have listed := List.mem_map_of_mem (f := cellOf (typeOf texts)) member
      rw [← same _ listed, nullIfMissing, if_pos (List.all_eq_true.mp missing _ listed)]
    · rfl

/-- NaN is read where its spelling is no mark of a missing cell, and is written like one. -/
theorem columnOf_loses_nan :
    ∃ column again, columnOf "x" ["NAN"] = .ok column ∧
      columnOf "x" (column.cells.map cellText) = .ok again ∧
      column = ⟨"x", .float, [.float notANumber]⟩ ∧ again = ⟨"x", .int, [.null]⟩ :=
  ⟨_, _, by rfl, by rfl, rfl, rfl⟩

end TableSieve.Csv
