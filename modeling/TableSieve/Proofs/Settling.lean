import TableSieve.Proofs.IntegerRounding
import TableSieve.Proofs.Spreading

/-!
When the rules on missing cells settle. A rule is a run of moves within each row: one erases a field
where its main field is missing, another fills a field where its main field is present. Where no
move writes a main field, and none fills a field that another erases, no later move undoes what an
earlier one did. So after one run every rule holds at once, and a second run finds nothing to do.
-/

namespace TableSieve

open TableSieve.Number

theorem exists_lookup_iff {α : Type} {entries : List (String × α)} {name : String} :
    (∃ value, entries.lookup name = some value) ↔ name ∈ entries.map (·.1) := by
  rw [← Option.isSome_iff_exists, List.lookup_isSome_iff, List.mem_map]
  exact exists_congr fun pair => and_congr_right fun _ => by rw [beq_iff_eq, eq_comm]

theorem exists_cellAt {names : List String} {row : List Cell} (length : row.length = names.length)
    {name : String} (known : name ∈ names) : ∃ cell, cellAt names row name = some cell := by
  rw [cellAt, exists_lookup_iff]
  exact (List.map_fst_zip length.ge).symm ▸ known

theorem cellAt_getElem {names : List String} (distinct : names.Nodup) {row : List Cell}
    (length : row.length = names.length) {index : Nat} (bound : index < names.length)
    (rowBound : index < row.length) : cellAt names row names[index] = some row[index] := by
  have labels : (names.zip row).map Prod.fst = names := List.map_fst_zip length.ge
  have member : (names[index], row[index]) ∈ names.zip row :=
    List.mem_iff_getElem.mpr ⟨index, by simp [length, bound], by simp⟩
  have found := find?_of_distinct (labels.symm ▸ distinct) member
  have looked := lookup_map Prod.fst Prod.snd (names.zip row) names[index]
  rw [cellAt]
  simpa [found] using looked

section Fields

variable {schema : List (String × CellType)} {row : List Cell}

theorem fieldOf_setField_of_ne {name other : String} (different : other ≠ name) (cell : Cell) :
    fieldOf schema (setField schema name cell row) other = fieldOf schema row other := by
  rw [fieldOf, cellAt_setField_of_ne different, fieldOf]

theorem fieldOf_setField_self (length : row.length = schema.length) {name : String}
    (known : name ∈ schema.map (·.1)) (cell : Cell) :
    fieldOf schema (setField schema name cell row) name = cell := by
  have namesLength : row.length = (schema.map (·.1)).length := by rw [length, List.length_map]
  obtain ⟨old, found⟩ := exists_cellAt namesLength known
  simp [fieldOf, cellAt_setField, found]

theorem fieldOf_setField_null (name : String) :
    fieldOf schema (setField schema name .null row) name = .null := by
  rw [fieldOf, cellAt_setField]
  cases cellAt (schema.map (·.1)) row name <;> simp

theorem length_setField (length : row.length = schema.length) (name : String) (cell : Cell) :
    (setField schema name cell row).length = schema.length := by
  simp [setField, length]

theorem setField_fieldOf (distinct : (schema.map (·.1)).Nodup) (length : row.length = schema.length)
    (name : String) : setField schema name (fieldOf schema row name) row = row := by
  have namesLength : row.length = (schema.map (·.1)).length := by simp [length]
  apply List.ext_getElem (by simp [setField, length])
  intro index _ bound
  have found := cellAt_getElem distinct namesLength (namesLength ▸ bound) bound
  simp only [setField, List.getElem_zipWith]
  split
  · rename_i same
    rw [← beq_iff_eq.mp same, fieldOf, found, Option.getD_some]
  · rfl

end Fields

namespace CellType

theorem cast?_present {source target : CellType} {cell : Cell}
    (castable : source.canCastTo target = true) (accepted : source.accepts cell = true)
    (present : cell.isMissing = false) :
    ((target.cast? cell).getD .null).isMissing = false := by
  simp only [canCastTo, Bool.or_eq_true, Bool.and_eq_true, decide_eq_true_eq] at castable
  rcases castable with rfl | ⟨rfl, rfl⟩
  · rwa [cast?_of_accepts accepted]
  · cases cell with
    | int value => exact isNaN_ofInt value.toInt
    | _ => simp_all [accepts, Cell.type?, Cell.isMissing]

end CellType

def Castable (schema : List (String × CellType)) (main related : String) : Prop :=
  ∃ source target, schema.lookup main = some source ∧ schema.lookup related = some target ∧
    source.canCastTo target = true

structure Fits (schema : List (String × CellType)) (row : List Cell) : Prop where
  length : row.length = schema.length
  accepted : ∀ name type, schema.lookup name = some type →
    type.accepts (fieldOf schema row name) = true

theorem Fits.setField {schema : List (String × CellType)} {row : List Cell} (fits : Fits schema row)
    {name : String} {cell : Cell}
    (accepted : ∀ type, schema.lookup name = some type → type.accepts cell = true) :
    Fits schema (setField schema name cell row) where
  length := length_setField fits.length name cell
  accepted := by
    intro other type found
    by_cases same : other = name
    · subst same
      rw [fieldOf_setField_self fits.length (exists_lookup_iff.mp ⟨type, found⟩)]
      exact accepted type found
    · rw [fieldOf_setField_of_ne same]
      exact fits.accepted other type found

theorem Framed.fieldOf_eq {schema : List (String × CellType)} {row after : List Cell}
    {erased copied : List String} {name : String}
    (framed : Framed erased copied (cellAt (schema.map (·.1)) row)
      (cellAt (schema.map (·.1)) after))
    (notErased : name ∉ erased)
    (kept : name ∉ copied ∨ (fieldOf schema row name).isMissing = false) :
    fieldOf schema after name = fieldOf schema row name := by
  rcases kept with notCopied | present
  · rw [fieldOf, framed.unlisted name notErased notCopied, fieldOf]
  · cases found : cellAt (schema.map (·.1)) row name with
    | none => simp [fieldOf, found, Cell.isMissing] at present
    | some cell =>
        rw [fieldOf_of_cellAt found] at present ⊢
        exact fieldOf_of_cellAt (framed.present_stays name cell notErased found present)

theorem NullGroups.Frames.framed {schema : List (String × CellType)} {erased copied : List String}
    {change : List Cell → List Cell}
    (frames : NullGroups.Frames schema erased copied fun row => .kept (change row))
    (row : List Cell) : Framed erased copied (cellAt (schema.map (·.1)) row)
      (cellAt (schema.map (·.1)) (change row)) := by
  obtain ⟨after, given, framed⟩ := frames row
  cases given
  exact framed

inductive NullMove
  | erase (main related : String)
  | copy (main related : String)

namespace NullMove

open NullGroups

variable {schema : List (String × CellType)} {erased copied : List String} {row : List Cell}

def on (schema : List (String × CellType)) : NullMove → List Cell → List Cell
  | .erase main related => eraseRow schema main related
  | .copy main related => copyRow schema main related

def Done (schema : List (String × CellType)) (row : List Cell) : NullMove → Prop
  -- A missing cell of another form would still be changed by the move.
  | .erase main related =>
    (fieldOf schema row main).isMissing = true → fieldOf schema row related = .null
  | .copy main related =>
    Castable schema main related → (fieldOf schema row main).isMissing = false →
      (fieldOf schema row related).isMissing = false

/-- The move reads a field that no move writes, and writes one that no move of the other kind
writes. -/
def Apart (erased copied : List String) : NullMove → Prop
  | .erase main related => (main ∉ erased ∧ main ∉ copied) ∧ related ∈ erased ∧ related ∉ copied
  | .copy main related => (main ∉ erased ∧ main ∉ copied) ∧ related ∈ copied ∧ related ∉ erased

theorem copyRow_of_castable {main related : String} (different : related ≠ main)
    {source target : CellType} (sourceFound : schema.lookup main = some source)
    (targetFound : schema.lookup related = some target)
    (castable : source.canCastTo target = true) (row : List Cell) :
    copyRow schema main related row = setField schema related
      (copyCell target (fieldOf schema row main) (fieldOf schema row related)) row := by
  simp [copyRow, different, sourceFound, targetFound, castable]

theorem copyRow_of_not_castable {main related : String} (foreign : ¬Castable schema main related)
    (row : List Cell) : copyRow schema main related row = row := by
  unfold copyRow
  split
  · rfl
  · split
    · rename_i source target sourceFound targetFound
      rw [if_neg]
      exact fun castable => foreign ⟨source, target, sourceFound, targetFound, castable⟩
    · rfl

theorem Apart.framed {move : NullMove} (apart : move.Apart erased copied) (row : List Cell) :
    Framed erased copied (cellAt (schema.map (·.1)) row)
      (cellAt (schema.map (·.1)) (move.on schema row)) := by
  cases move with
  | erase main related => exact (frames_eraseRow copied main apart.2.1).framed row
  | copy main related => exact (frames_copyRow erased main apart.2.1).framed row

theorem fits_on (fits : Fits schema row) (move : NullMove) : Fits schema (move.on schema row) := by
  cases move with
  | erase main related =>
      simp only [on, eraseRow]
      split
      · exact fits
      · exact fits.setField fun type found => accepts_eraseCell (fits.accepted related type found)
  | copy main related =>
      by_cases castable : Castable schema main related
      · obtain ⟨source, target, sourceFound, targetFound, castable⟩ := castable
        by_cases same : related = main
        · simpa [on, copyRow, same] using fits
        · rw [on, copyRow_of_castable same sourceFound targetFound castable]
          refine fits.setField fun type found => ?_
          obtain rfl := Option.some.inj (targetFound.symm.trans found)
          exact accepts_copyCell (fits.accepted related target found)
      · rwa [on, copyRow_of_not_castable castable]

theorem done_on {move : NullMove} (apart : move.Apart erased copied) (fits : Fits schema row) :
    move.Done schema (move.on schema row) := by
  cases move with
  | erase main related =>
      obtain ⟨⟨notErased, _⟩, listed, _⟩ := apart
      have different : related ≠ main := fun same => notErased (same ▸ listed)
      simp only [Done, on, eraseRow, different, if_false]
      rw [fieldOf_setField_of_ne different.symm]
      intro missing
      rw [eraseCell, if_pos missing, fieldOf_setField_null]
  | copy main related =>
      obtain ⟨⟨_, notCopied⟩, listed, _⟩ := apart
      have different : related ≠ main := fun same => notCopied (same ▸ listed)
      rintro ⟨source, target, sourceFound, targetFound, castable⟩
      have known := exists_lookup_iff.mp ⟨target, targetFound⟩
      rw [on, copyRow_of_castable different sourceFound targetFound castable,
        fieldOf_setField_of_ne different.symm, fieldOf_setField_self fits.length known]
      intro present
      unfold copyCell
      split
      · exact CellType.cast?_present castable (fits.accepted main source sourceFound) present
      · rename_i filled
        simpa [present] using filled

theorem null_stays {next : NullMove} (apart : next.Apart erased copied) {name : String}
    (notCopied : name ∉ copied) (null : fieldOf schema row name = .null) :
    fieldOf schema (next.on schema row) name = .null := by
  cases next with
  | erase main related =>
      simp only [on, eraseRow]
      split
      · exact null
      · by_cases same : name = related
        · subst same
          have erased : eraseCell (fieldOf schema row main) .null = .null := ite_self _
          rw [null, erased, fieldOf_setField_null]
        · rwa [fieldOf_setField_of_ne same]
  | copy main related =>
      have different : name ∉ [related] := by
        rw [List.mem_singleton]
        rintro rfl
        exact notCopied apart.2.1
      have frames : Frames schema [] [related] fun row => .kept (copyRow schema main related row) :=
        frames_copyRow [] main (List.mem_singleton_self related)
      rw [on, (frames.framed row).fieldOf_eq List.not_mem_nil (Or.inl different), null]

/-- No move undoes what another did. -/
theorem done_stays {move next : NullMove} (apart : move.Apart erased copied)
    (nextApart : next.Apart erased copied) (done : move.Done schema row) :
    move.Done schema (next.on schema row) := by
  have framed : Framed erased copied (cellAt (schema.map (·.1)) row)
      (cellAt (schema.map (·.1)) (next.on schema row)) := nextApart.framed row
  cases move with
  | erase main related =>
      obtain ⟨⟨mainNotErased, mainNotCopied⟩, _, notCopied⟩ := apart
      rw [Done, framed.fieldOf_eq mainNotErased (Or.inl mainNotCopied)]
      exact fun missing => null_stays nextApart notCopied (done missing)
  | copy main related =>
      obtain ⟨⟨mainNotErased, mainNotCopied⟩, _, notErased⟩ := apart
      rw [Done, framed.fieldOf_eq mainNotErased (Or.inl mainNotCopied)]
      intro castable present
      -- Other moves may copy into the field too, but they leave a present cell alone.
      have filled := done castable present
      rwa [framed.fieldOf_eq notErased (Or.inr filled)]

theorem on_eq_self {move : NullMove} (distinct : (schema.map (·.1)).Nodup)
    (length : row.length = schema.length) (done : move.Done schema row) :
    move.on schema row = row := by
  cases move with
  | erase main related =>
      simp only [on, eraseRow]
      split
      · rfl
      · have same : eraseCell (fieldOf schema row main) (fieldOf schema row related) =
            fieldOf schema row related := by
          unfold eraseCell
          split
          · rename_i missing
            exact (done missing).symm
          · rfl
        rw [same, setField_fieldOf distinct length]
  | copy main related =>
      by_cases castable : Castable schema main related
      · by_cases self : related = main
        · simp [on, copyRow, self]
        · obtain ⟨source, target, sourceFound, targetFound, canCast⟩ := id castable
          have same : copyCell target (fieldOf schema row main) (fieldOf schema row related) =
              fieldOf schema row related := by
            unfold copyCell
            split
            · rename_i vacant
              simp only [Bool.and_eq_true, Bool.not_eq_true'] at vacant
              exact absurd (done castable vacant.2) (by simp [vacant.1])
            · rfl
          rw [on, copyRow_of_castable self sourceFound targetFound canCast, same,
            setField_fieldOf distinct length]
      · rw [on, copyRow_of_not_castable castable]

def run (schema : List (String × CellType)) (moves : List NullMove) (row : List Cell) : List Cell :=
  moves.foldl (fun row move => move.on schema row) row

theorem framed_run {moves : List NullMove} (apart : ∀ move ∈ moves, move.Apart erased copied)
    (row : List Cell) : Framed erased copied (cellAt (schema.map (·.1)) row)
      (cellAt (schema.map (·.1)) (run schema moves row)) := by
  induction moves generalizing row with
  | nil => exact .refl erased copied _
  | cons move moves ih =>
      obtain ⟨first, rest⟩ := List.forall_mem_cons.mp apart
      exact (first.framed row).trans (ih rest _)

theorem done_stays_run {move : NullMove} (apart : move.Apart erased copied) {moves : List NullMove}
    (movesApart : ∀ next ∈ moves, next.Apart erased copied) (done : move.Done schema row) :
    move.Done schema (run schema moves row) := by
  induction moves generalizing row with
  | nil => exact done
  | cons next moves ih =>
      obtain ⟨first, rest⟩ := List.forall_mem_cons.mp movesApart
      exact ih rest (done_stays apart first done)

theorem done_run {moves : List NullMove} (apart : ∀ move ∈ moves, move.Apart erased copied)
    (fits : Fits schema row) : ∀ move ∈ moves, move.Done schema (run schema moves row) := by
  induction moves generalizing row with
  | nil => exact List.forall_mem_nil _
  | cons move moves ih =>
      obtain ⟨first, rest⟩ := List.forall_mem_cons.mp apart
      have stays := done_stays_run first rest (done_on first fits)
      exact List.forall_mem_cons.mpr ⟨stays, ih rest (fits_on fits move)⟩

theorem run_eq_self {moves : List NullMove} (distinct : (schema.map (·.1)).Nodup)
    (length : row.length = schema.length) (done : ∀ move ∈ moves, move.Done schema row) :
    run schema moves row = row := by
  induction moves with
  | nil => rfl
  | cons move moves ih =>
      obtain ⟨first, rest⟩ := List.forall_mem_cons.mp done
      rw [run, List.foldl_cons, on_eq_self distinct length first]
      exact ih rest

end NullMove

theorem RowFate.steps_kept {α : Type} (change : α → List Cell → List Cell) (items : List α)
    (row : List Cell) :
    steps (fun item row => .kept (change item row)) items row =
      .kept (items.foldl (fun row item => change item row) row) := by
  induction items generalizing row with
  | nil => rfl
  | cons item items ih => exact ih (change item row)

namespace NullRule

def moves (rule : NullRule) : List NullMove :=
  rule.erased.map (.erase rule.main) ++ rule.copied.map (.copy rule.main)

theorem mem_fieldList {rule : NullRule} {field : String} :
    field ∈ rule.fieldList ↔ field = rule.main ∨ field ∈ rule.erased ∨ field ∈ rule.copied := by
  unfold fieldList erased copied
  cases rule.action <;> simp

end NullRule

namespace NullGroups

variable {table : Table} {schema : List (String × CellType)} {row : List Cell}

def moves (groups : NullGroups) : List NullMove :=
  groups.rules.flatMap NullRule.moves

theorem ruleFate_eq_kept (rule : NullRule) :
    ruleFate schema rule = fun row => .kept (NullMove.run schema rule.moves row) := by
  funext row
  unfold ruleFate NullRule.moves NullRule.erased NullRule.copied
  cases rule.action with
  | delete => rfl
  | spread erased copied =>
      simp only [RowFate.steps_kept, RowFate.andThen, NullMove.run, List.foldl_append,
        List.foldl_map, NullMove.on]

theorem row?_fate (groups : NullGroups) (row : List Cell) :
    (groups.fate schema row).row? =
      if groups.spares schema row then some (NullMove.run schema groups.moves row) else none := by
  unfold fate RowFate.keepIf
  split
  · simp only [RowFate.andThen, funext ruleFate_eq_kept, RowFate.steps_kept, RowFate.row?,
      NullMove.run, moves, List.foldl_flatMap]
  · rfl

/-- No rule writes a main field, and none fills a field that some rule erases. -/
structure Apart (groups : NullGroups) : Prop where
  mains : ∀ rule ∈ groups.rules, rule.main ∉ groups.erasedFields ∧ rule.main ∉ groups.copiedFields
  lists : ∀ field ∈ groups.erasedFields, field ∉ groups.copiedFields

theorem Apart.moves {groups : NullGroups} (apart : groups.Apart) :
    ∀ move ∈ groups.moves, move.Apart groups.erasedFields groups.copiedFields := by
  intro move member
  obtain ⟨rule, inside, listed⟩ := List.mem_flatMap.mp member
  have mains := apart.mains rule inside
  rcases List.mem_append.mp listed with erases | copies
  · obtain ⟨related, named, rfl⟩ := List.mem_map.mp erases
    have field : related ∈ groups.erasedFields := List.mem_flatMap.mpr ⟨rule, inside, named⟩
    exact ⟨mains, field, apart.lists related field⟩
  · obtain ⟨related, named, rfl⟩ := List.mem_map.mp copies
    have field : related ∈ groups.copiedFields := List.mem_flatMap.mpr ⟨rule, inside, named⟩
    exact ⟨mains, field, fun erased => apart.lists related erased field⟩

end NullGroups

theorem Table.WellFormed.fits {table : Table} (wellFormed : table.WellFormed) {row : List Cell}
    (member : row ∈ table.rows) : Fits table.schema row where
  length := by
    rw [length_of_mem_rows member, names_eq_schema, List.length_map]
  accepted := by
    intro name type found
    obtain ⟨column, listed⟩ := exists_column?_iff.mpr (exists_lookup_iff.mp ⟨type, found⟩)
    obtain rfl := Option.some.inj ((lookup_schema listed).symm.trans found)
    refine wellFormed.cells column (mem_of_column? listed).1 _ ?_
    rw [wellFormed.cells_eq_map listed]
    exact List.mem_map_of_mem member

def MissingAt (cells : String → Option Cell) (name : String) : Prop :=
  ∃ cell, cells name = some cell ∧ cell.isMissing = true

def PresentAt (cells : String → Option Cell) (name : String) : Prop :=
  ∃ cell, cells name = some cell ∧ cell.isMissing = false

structure NullRule.HoldsOn (schema : List (String × CellType)) (cells : String → Option Cell)
    (rule : NullRule) : Prop where
  deleted : rule.action = .delete → PresentAt cells rule.main
  erased : MissingAt cells rule.main → ∀ field ∈ rule.erased, MissingAt cells field
  copied : PresentAt cells rule.main → ∀ field ∈ rule.copied, Castable schema rule.main field →
    PresentAt cells field

section Rows

variable {table : Table} {row : List Cell}

theorem Table.WellFormed.missingAt_iff (wellFormed : table.WellFormed) (member : row ∈ table.rows)
    {name : String} (known : name ∈ table.schema.map (·.1)) :
    MissingAt (table.onRow row) name ↔ (fieldOf table.schema row name).isMissing = true := by
  simp [MissingAt, wellFormed.onRow_eq_some member known]

theorem Table.WellFormed.presentAt_iff (wellFormed : table.WellFormed) (member : row ∈ table.rows)
    {name : String} (known : name ∈ table.schema.map (·.1)) :
    PresentAt (table.onRow row) name ↔ (fieldOf table.schema row name).isMissing = false := by
  simp [PresentAt, wellFormed.onRow_eq_some member known]

end Rows

namespace NullGroups

variable {table : Table}

theorem holdsOn_of_done {groups : NullGroups} (wellFormed : table.WellFormed)
    (known : ∀ field ∈ groups.fields, field ∈ table.schema.map (·.1)) {row : List Cell}
    (member : row ∈ table.rows) (spared : groups.spares table.schema row = true)
    (done : ∀ move ∈ groups.moves, move.Done table.schema row) {rule : NullRule}
    (inside : rule ∈ groups.rules) : rule.HoldsOn table.schema (table.onRow row) := by
  have ruleKnown (field : String) (listed : field ∈ rule.fieldList) :=
    known field (fieldList_subset inside field listed)
  have mainKnown := ruleKnown rule.main (NullRule.mem_fieldList.mpr (Or.inl rfl))
  have ruleDone (move : NullMove) (listed : move ∈ rule.moves) :=
    done move (List.mem_flatMap.mpr ⟨rule, inside, listed⟩)
  refine ⟨(spares_iff wellFormed known member).mp spared rule inside, ?_, ?_⟩
  · intro missing field listed
    have fieldKnown := ruleKnown field (NullRule.mem_fieldList.mpr (Or.inr (Or.inl listed)))
    have erased : NullMove.Done _ _ (.erase rule.main field) :=
      ruleDone _ (List.mem_append_left _ (List.mem_map_of_mem listed))
    rw [wellFormed.missingAt_iff member mainKnown] at missing
    rw [wellFormed.missingAt_iff member fieldKnown, erased missing]
    rfl
  · intro present field listed castable
    have fieldKnown := ruleKnown field (NullRule.mem_fieldList.mpr (Or.inr (Or.inr listed)))
    have copied : NullMove.Done _ _ (.copy rule.main field) :=
      ruleDone _ (List.mem_append_right _ (List.mem_map_of_mem listed))
    rw [wellFormed.presentAt_iff member mainKnown] at present
    rw [wellFormed.presentAt_iff member fieldKnown]
    exact copied castable present

theorem spares_run {groups : NullGroups} (apart : groups.Apart) (schema : List (String × CellType))
    (row : List Cell) :
    groups.spares schema (NullMove.run schema groups.moves row) = groups.spares schema row := by
  unfold spares
  rw [Bool.eq_iff_iff, List.all_eq_true, List.all_eq_true]
  refine forall₂_congr fun field listed => ?_
  obtain ⟨rule, inside, _, rfl⟩ := mem_deleteFields.mp listed
  obtain ⟨notErased, notCopied⟩ := apart.mains rule inside
  rw [(NullMove.framed_run apart.moves row).fieldOf_eq notErased (Or.inl notCopied)]

theorem exists_apply_eq_ok {groups : NullGroups} (wellFormed : table.WellFormed)
    (known : ∀ field ∈ groups.fields, field ∈ table.schema.map (·.1)) :
    ∃ narrowed, ((Constraint.nullGroups groups).apply table).result = .ok narrowed ∧
      narrowed.WellFormed ∧ narrowed.schema = table.schema ∧
      narrowed.rows = (table.rows.filter (groups.spares table.schema)).map
        (NullMove.run table.schema groups.moves) := by
  have narrows := groups.narrows_filter wellFormed
  obtain ⟨narrowed, given, rows⟩ := (acts_filter wellFormed rfl known).rows
    (Filtering.Succeeds.good_of_narrows narrows (by decide))
  obtain ⟨narrowedWellFormed, sameSchema⟩ := narrows.keeps narrowed given
  have valid : (Constraint.nullGroups groups).validate table = .ok () :=
    Constraint.validate_eq_ok known
  refine ⟨narrowed, ?_, narrowedWellFormed, sameSchema, ?_⟩
  · rw [Constraint.apply, valid]
    exact given
  · rw [rows, ← List.filterMap_eq_map, List.filterMap_filter]
    simp only [row?_fate, Function.comp_apply]

/-- Where no rule writes a main field and none fills a field that another erases, what the rules
leave of a table satisfies them all, and applying them to it changes nothing. -/
theorem apply_settles_rules (groups : NullGroups) (wellFormed : table.WellFormed)
    (hasFields : ∀ field ∈ groups.fields, table.hasColumn field = true) (apart : groups.Apart) :
    ∃ narrowed, ((Constraint.nullGroups groups).apply table).result = .ok narrowed ∧
      narrowed.schema = table.schema ∧
      (∀ row ∈ narrowed.rows, ∀ rule ∈ groups.rules,
        rule.HoldsOn narrowed.schema (narrowed.onRow row)) ∧
      ((Constraint.nullGroups groups).apply narrowed).result = .ok narrowed := by
  have known : ∀ field ∈ groups.fields, field ∈ table.schema.map (·.1) :=
    fun field member => Table.hasColumn_iff.mp (hasFields field member)
  obtain ⟨narrowed, given, narrowedWellFormed, sameSchema, rows⟩ :=
    exists_apply_eq_ok wellFormed known
  rw [← sameSchema] at known rows
  have settled : ∀ row ∈ narrowed.rows, groups.spares narrowed.schema row = true ∧
      ∀ move ∈ groups.moves, move.Done narrowed.schema row := by
    intro row member
    rw [rows] at member
    obtain ⟨before, kept, rfl⟩ := List.mem_map.mp member
    obtain ⟨present, spared⟩ := List.mem_filter.mp kept
    have fits := sameSchema ▸ wellFormed.fits present
    rw [spares_run apart]
    exact ⟨spared, NullMove.done_run apart.moves fits⟩
  refine ⟨narrowed, given, sameSchema, ?_, ?_⟩
  · intro row member rule inside
    obtain ⟨spared, done⟩ := settled row member
    exact holdsOn_of_done narrowedWellFormed known member spared done inside
  · obtain ⟨again, againGiven, againWellFormed, againSchema, againRows⟩ :=
      exists_apply_eq_ok narrowedWellFormed known
    have sameRows : again.rows = narrowed.rows := by
      rw [againRows, List.filter_eq_self.mpr fun row member => (settled row member).1]
      refine (List.map_congr_left fun row member => ?_).trans (List.map_id _)
      have distinct : (narrowed.schema.map (·.1)).Nodup :=
        narrowed.names_eq_schema ▸ narrowedWellFormed.names_distinct
      exact NullMove.run_eq_self distinct (narrowedWellFormed.fits member).length
        (settled row member).2
    rw [againGiven, againWellFormed.eq_of_rows narrowedWellFormed againSchema sameRows]

theorem apply_settles_rules_shared :
    let groups : NullGroups :=
      ⟨[⟨"age", .delete⟩, ⟨"badge", .spread ["room"] ["score", "note"]⟩,
        ⟨"level", .spread [] ["score"]⟩, ⟨"site", .spread ["room", "desk"] []⟩]⟩
    let table : Table :=
      ⟨[⟨"age", .int, [.int 30, .null, .int 17]⟩, ⟨"badge", .int, [.null, .int 4, .int 7]⟩,
        ⟨"level", .float, [.float 2, .null, .null]⟩, ⟨"site", .text, [.text "a", .text "b", .null]⟩,
        ⟨"room", .text, [.text "r", .text "s", .text "t"]⟩,
        ⟨"desk", .float, [.float 1, .null, .float 0.5]⟩,
        ⟨"score", .float, [.null, .null, .float (0 / 0)]⟩,
        ⟨"note", .text, [.null, .null, .null]⟩], 3⟩
    let narrowed : Table :=
      ⟨[⟨"age", .int, [.int 30, .int 17]⟩, ⟨"badge", .int, [.null, .int 7]⟩,
        ⟨"level", .float, [.float 2, .null]⟩, ⟨"site", .text, [.text "a", .null]⟩,
        ⟨"room", .text, [.null, .null]⟩, ⟨"desk", .float, [.float 1, .null]⟩,
        ⟨"score", .float, [.float 2, .float 7]⟩, ⟨"note", .text, [.null, .null]⟩], 2⟩
    table.WellFormed ∧ (∀ field ∈ groups.fields, table.hasColumn field = true) ∧ groups.Apart ∧
      ((Constraint.nullGroups groups).apply table).result = .ok narrowed ∧
      (∀ row ∈ narrowed.rows, ∀ rule ∈ groups.rules,
        rule.HoldsOn narrowed.schema (narrowed.onRow row)) ∧
      ((Constraint.nullGroups groups).apply narrowed).result = .ok narrowed := by
  intro groups table narrowed
  have wellFormed : table.WellFormed := by decide +kernel
  have hasFields : ∀ field ∈ groups.fields, table.hasColumn field = true := by decide +kernel
  have apart : groups.Apart := ⟨by decide, by decide⟩
  have given : ((Constraint.nullGroups groups).apply table).result = .ok narrowed := by rfl
  obtain ⟨other, otherGiven, _, holds, again⟩ :=
    groups.apply_settles_rules wellFormed hasFields apart
  obtain rfl : other = narrowed := Except.ok.inj (otherGiven.symm.trans given)
  exact ⟨wellFormed, hasFields, apart, given, holds, again⟩

end NullGroups

end TableSieve
