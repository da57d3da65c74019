import TableSieve.Proofs.Joining

/-!
Inferring the type of a column. The type that a run over the cells finds is one that the cells
share, whatever their order: the only type of the present ones, or float if they are integers and
floats, or float if there are none. So the cells may come in any order.
-/

namespace TableSieve

open TableSieve.Number

namespace Column

/-- The present cells have the type, or they are integers and floats and the type is float. It is
the type of one of them, or float if there is none. -/
structure SharedType (cells : List Cell) (type : CellType) : Prop where
  fits : ∀ cell ∈ cells, cell.isMissing = false →
    cell.type? = some type ∨ (type = .float ∧ cell.type? = some .int)
  taken : (∃ cell ∈ cells, cell.type? = some type) ∨
    (type = .float ∧ ∀ cell ∈ cells, cell.isMissing = true)

structure Found (found : Option CellType) (cells : List Cell) : Prop where
  nothing : found = none → ∀ cell ∈ cells, cell.isMissing = true
  taken : ∀ type, found = some type → ∃ cell ∈ cells, cell.type? = some type
  whole : found = some .int → ∀ cell ∈ cells, cell.type? ≠ some .float

theorem found_nil : Found none [] :=
  ⟨by simp, by simp, by simp⟩

theorem Found.joinType {found : Option CellType} {cells : List Cell} (seen : Found found cells)
    (cell : Cell) : Found (joinType found cell) (cells ++ [cell]) := by
  have before : ∀ type, found = some type → ∃ other ∈ cells ++ [cell], other.type? = some type :=
    fun type same => (seen.taken type same).imp fun _ ⟨member, typed⟩ =>
      ⟨List.mem_append_left _ member, typed⟩
  unfold Column.joinType
  split
  · rename_i missing
    refine ⟨fun none => ?_, before, fun isInt => ?_⟩
    · exact List.forall_mem_append.mpr
        ⟨seen.nothing none, by simp [Cell.type?_eq_none_iff.mp missing]⟩
    · exact List.forall_mem_append.mpr ⟨seen.whole isInt, by simp [missing]⟩
  · rename_i typed
    have above := seen.nothing rfl
    refine ⟨fun none => absurd none typed, fun other same => ⟨cell, by simp, same⟩, fun isInt => ?_⟩
    refine List.forall_mem_append.mpr ⟨fun other member => ?_, by simp [isInt]⟩
    simp [Cell.type?_eq_none_iff.mpr (above other member)]
  · rename_i isFloat
    refine ⟨by simp, ?_, by simp⟩
    rintro type ⟨⟩
    exact ⟨cell, by simp, isFloat⟩
  · rename_i known other notBoth typed
    refine ⟨by simp, before, fun isInt => ?_⟩
    refine List.forall_mem_append.mpr ⟨seen.whole isInt, ?_⟩
    simp only [List.mem_singleton, forall_eq]
    intro isFloat
    exact notBoth (Option.some.inj isInt) (Option.some.inj (typed.symm.trans isFloat))

theorem Found.foldl {found : Option CellType} {cells : List Cell} (seen : Found found cells)
    (more : List Cell) : Found (more.foldl Column.joinType found) (cells ++ more) := by
  induction more generalizing found cells with
  | nil => rwa [List.append_nil]
  | cons cell more ih =>
      have next := ih (seen.joinType cell)
      rwa [List.append_assoc] at next

theorem found_inferred (cells : List Cell) : Found (cells.foldl Column.joinType none) cells :=
  found_nil.foldl cells

theorem taken_inferredType (cells : List Cell) :
    (∃ cell ∈ cells, cell.type? = some (inferredType cells)) ∨
      (inferredType cells = .float ∧ ∀ cell ∈ cells, cell.isMissing = true) := by
  have seen := found_inferred cells
  unfold inferredType
  cases found : cells.foldl Column.joinType none with
  | none => exact .inr ⟨rfl, seen.nothing found⟩
  | some type => exact .inl (seen.taken type found)

theorem isMissing_eq_false_of_type? {cell : Cell} {type : CellType}
    (typed : cell.type? = some type) : cell.isMissing = false := by
  rw [← Bool.not_eq_true, ← Cell.type?_eq_none_iff, typed]
  exact Option.some_ne_none type

theorem SharedType.eq_float_of_missing {cells : List Cell} {type : CellType}
    (shared : SharedType cells type) (missing : ∀ cell ∈ cells, cell.isMissing = true) :
    type = .float := by
  rcases shared.taken with ⟨cell, member, typed⟩ | ⟨isFloat, _⟩
  · rw [Cell.type?_eq_none_iff.mpr (missing cell member)] at typed
    cases typed
  · exact isFloat

theorem SharedType.eq_float_of_mixed {cells : List Cell} {type : CellType}
    (shared : SharedType cells type) {whole fraction : Cell} (wholeMember : whole ∈ cells)
    (isInt : whole.type? = some .int) (fractionMember : fraction ∈ cells)
    (isFloat : fraction.type? = some .float) : type = .float := by
  rcases shared.fits whole wholeMember (isMissing_eq_false_of_type? isInt) with typed | ⟨same, _⟩
  · obtain rfl := Option.some.inj (isInt.symm.trans typed)
    have fits := shared.fits fraction fractionMember (isMissing_eq_false_of_type? isFloat)
    simp [isFloat] at fits
  · exact same

theorem SharedType.inferredType_eq {cells : List Cell} {type : CellType}
    (shared : SharedType cells type) : inferredType cells = type := by
  have seen := found_inferred cells
  unfold inferredType
  cases found : cells.foldl Column.joinType none with
  | none =>
      rw [shared.eq_float_of_missing (seen.nothing found), Option.getD_none]
  | some known =>
      rw [Option.getD_some]
      obtain ⟨cell, member, typed⟩ := seen.taken known found
      have present := isMissing_eq_false_of_type? typed
      rcases shared.fits cell member present with same | ⟨isFloat, isInt⟩
      · exact Option.some.inj (typed.symm.trans same)
      · -- Integers found so far and no float after them, though the shared type is float.
        obtain rfl := Option.some.inj (typed.symm.trans isInt)
        rcases shared.taken with ⟨other, otherMember, otherTyped⟩ | ⟨_, missing⟩
        · exact absurd (isFloat ▸ otherTyped) (seen.whole found other otherMember)
        · rw [missing cell member] at present
          cases present

theorem SharedType.perm {cells other : List Cell} {type : CellType}
    (shared : SharedType cells type) (perm : cells.Perm other) : SharedType other type := by
  refine ⟨fun cell member => shared.fits cell (perm.mem_iff.mpr member), ?_⟩
  simpa only [perm.mem_iff] using shared.taken

theorem fits_iff {type : CellType} {cell : Cell} :
    (type.accepts cell = true ∨ (type = .float ∧ cell.type? = some .int)) ↔
      (cell.isMissing = false →
        cell.type? = some type ∨ (type = .float ∧ cell.type? = some .int)) := by
  cases missing : cell.isMissing with
  | true => simp [CellType.accepts_of_missing missing type]
  | false =>
      have accepts : type.accepts cell = true ↔ cell.type? = some type := by
        refine ⟨fun accepted => Cell.type?_of_accepts accepted missing, fun typed => ?_⟩
        simp [CellType.accepts, typed]
      simp [accepts]

theorem infer_eq_ok_iff {name : String} {cells : List Cell} {column : Column} :
    infer name cells = .ok column ↔
      SharedType cells column.type ∧
        column = ⟨name, column.type, cells.map (Cell.widen column.type)⟩ := by
  rw [infer, ofCells_eq_ok_iff]
  simp only [mapM_cast?_eq_some_iff, fits_iff]
  constructor
  · rintro ⟨_, ⟨fits, rfl⟩, rfl⟩
    exact ⟨⟨fits, taken_inferredType cells⟩, rfl⟩
  · rintro ⟨shared, same⟩
    refine ⟨_, ⟨?_, rfl⟩, ?_⟩ <;> rw [shared.inferredType_eq]
    · exact shared.fits
    · exact same

theorem exists_sharedType_iff {cells : List Cell} :
    (∃ type, SharedType cells type) ↔
      (∃ type, ∀ cell ∈ cells, cell.isMissing = false → cell.type? = some type) ∨
        ∀ cell ∈ cells, cell.isMissing = false →
          cell.type? = some .int ∨ cell.type? = some .float := by
  constructor
  · rintro ⟨type, shared⟩
    by_cases isFloat : type = .float
    · subst isFloat
      refine .inr fun cell member present => ?_
      exact (shared.fits cell member present).symm.imp_left And.right
    · refine .inl ⟨type, fun cell member present => ?_⟩
      exact (shared.fits cell member present).resolve_right fun both => isFloat both.1
  · intro uniform
    by_cases allMissing : ∀ cell ∈ cells, cell.isMissing = true
    · refine ⟨.float, fun cell member present => ?_, .inr ⟨rfl, allMissing⟩⟩
      rw [allMissing cell member] at present
      cases present
    · obtain ⟨cell, member, present⟩ : ∃ cell ∈ cells, cell.isMissing = false := by
        simpa using allMissing
      rcases uniform with ⟨type, same⟩ | numbers
      · exact ⟨type, fun other inside present => .inl (same other inside present),
          .inl ⟨cell, member, same cell member present⟩⟩
      by_cases anyFloat : ∃ other ∈ cells, other.type? = some .float
      · refine ⟨.float, fun other inside present => ?_, .inl anyFloat⟩
        exact (numbers other inside present).symm.imp_right fun isInt => ⟨rfl, isInt⟩
      · have ints : ∀ other ∈ cells, other.isMissing = false → other.type? = some .int :=
          fun other inside present => (numbers other inside present).resolve_right
            fun isFloat => anyFloat ⟨other, inside, isFloat⟩
        exact ⟨.int, fun other inside present => .inl (ints other inside present),
          .inl ⟨cell, member, ints cell member present⟩⟩

/-- A column can be inferred from its cells exactly if the present ones are of one type or are
integers and floats, so in every order of them or in none. Its type is that of all of them, float if
there are integers and floats or none at all, and the cells are the given ones, with integers
widened where the type is float, each in its place. -/
theorem infer_in_any_order (name : String) {cells other : List Cell} (perm : cells.Perm other) :
    ((∃ column, infer name cells = .ok column) ↔
      (∃ type, ∀ cell ∈ cells, cell.isMissing = false → cell.type? = some type) ∨
        ∀ cell ∈ cells, cell.isMissing = false →
          cell.type? = some .int ∨ cell.type? = some .float) ∧
    ((∃ column, infer name cells = .ok column) ↔ ∃ column, infer name other = .ok column) ∧
    ∀ column, infer name cells = .ok column →
      SharedType cells column.type ∧
      ((∃ cell ∈ cells, cell.type? = some .int) → (∃ cell ∈ cells, cell.type? = some .float) →
        column.type = .float) ∧
      ((∀ cell ∈ cells, cell.isMissing = true) → column.type = .float) ∧
      column = ⟨name, column.type, cells.map (Cell.widen column.type)⟩ ∧
      infer name other = .ok ⟨name, column.type, other.map (Cell.widen column.type)⟩ := by
  have succeeds (cells : List Cell) :
      (∃ column, infer name cells = .ok column) ↔ ∃ type, SharedType cells type := by
    constructor
    · rintro ⟨column, inferred⟩
      exact ⟨column.type, (infer_eq_ok_iff.mp inferred).1⟩
    · rintro ⟨type, shared⟩
      exact ⟨⟨name, type, cells.map (Cell.widen type)⟩, infer_eq_ok_iff.mpr ⟨shared, rfl⟩⟩
  refine ⟨(succeeds cells).trans exists_sharedType_iff, ?_, fun column inferred => ?_⟩
  · rw [succeeds, succeeds]
    exact exists_congr fun _ => ⟨(SharedType.perm · perm), (SharedType.perm · perm.symm)⟩
  · obtain ⟨shared, same⟩ := infer_eq_ok_iff.mp inferred
    refine ⟨shared, ?_, shared.eq_float_of_missing, same,
      infer_eq_ok_iff.mpr ⟨shared.perm perm, rfl⟩⟩
    rintro ⟨whole, wholeMember, isInt⟩ ⟨fraction, fractionMember, isFloat⟩
    exact shared.eq_float_of_mixed wholeMember isInt fractionMember isFloat

theorem infer_in_any_order_mixed :
    let cells : List Cell := [.int 1, .null, .float 2]
    let other : List Cell := [.float 2, .int 1, .null]
    cells.Perm other ∧
      infer "x" cells = .ok ⟨"x", .float, [.float (ofInt 1), .null, .float 2]⟩ ∧
      infer "x" other = .ok ⟨"x", .float, [.float 2, .float (ofInt 1), .null]⟩ := by
  intro cells other
  have perm : cells.Perm other := by decide +kernel
  have inferred : infer "x" cells = .ok ⟨"x", .float, [.float (ofInt 1), .null, .float 2]⟩ := by
    rfl
  obtain ⟨_, _, _, _, reordered⟩ := (infer_in_any_order "x" perm).2.2 _ inferred
  exact ⟨perm, inferred, reordered⟩

end Column

end TableSieve
