import TableSieve.Proofs.IntegerRounding
import TableSieve.Proofs.Joining

/-!
Appending in another grouping. What can be appended to a table after it took in another one can also
be appended piece by piece, with the same result. The other way round fails: integers and floats may
each go below floats, but floats do not go below integers.
-/

namespace TableSieve

open TableSieve.Number

namespace Cell

theorem widen_of_ne_float {type : CellType} (notFloat : type ≠ .float) (cell : Cell) :
    cell.widen type = cell := by
  cases cell <;> simp [widen, notFloat]

theorem widen_of_missing {cell : Cell} (missing : cell.isMissing = true) (type : CellType) :
    cell.widen type = cell :=
  widen_of_accepts (CellType.accepts_of_missing missing type)

theorem widen_widen (cell : Cell) (type : CellType) :
    (cell.widen type).widen type = cell.widen type := by
  cases cell with
  | int value => by_cases isFloat : type = .float <;> simp [widen, isFloat]
  | _ => rfl

theorem isMissing_widen (cell : Cell) (type : CellType) :
    (cell.widen type).isMissing = cell.isMissing := by
  cases cell with
  | int value => by_cases isFloat : type = .float <;> simp [widen, isFloat, isMissing, isNaN_ofInt]
  | _ => rfl

end Cell

namespace Column

variable {upper middle lower : Column}

theorem allMissing_join (upper lower : Column) :
    (upper.join lower).allMissing = (upper.allMissing && lower.allMissing) := by
  simp [allMissing, join, List.all_append, List.all_map, Function.comp_def, Cell.isMissing_widen]

theorem joinedType_join (upper middle lower : Column) :
    (upper.join middle).joinedType lower = upper.joinedType (middle.join lower) := by
  unfold joinedType
  rw [allMissing_join]
  cases missing : upper.allMissing <;> simp [join, joinedType, missing]

theorem joins_of_joins_join (outer : upper.Joins (middle.join lower)) : upper.Joins middle := by
  by_cases missing : middle.allMissing = true
  · exact Or.inr (Or.inl missing)
  · have type : (middle.join lower).type = middle.type := joinedType_of_present missing lower
    have present : ¬(middle.join lower).allMissing = true := by simp [allMissing_join, missing]
    rcases outer with upperMissing | lowerMissing | types
    · exact Or.inl upperMissing
    · exact absurd lowerMissing present
    · exact Or.inr (Or.inr (type ▸ types))

theorem join_joins (inner : middle.Joins lower) (outer : upper.Joins (middle.join lower)) :
    (upper.join middle).Joins lower := by
  unfold Joins at inner outer ⊢
  rw [allMissing_join] at outer ⊢
  by_cases upperMissing : upper.allMissing = true
  · have type : (upper.join middle).type = middle.type :=
      joinedType_of_allMissing upperMissing middle
    rwa [type, upperMissing, Bool.true_and]
  · have type : (upper.join middle).type = upper.type := joinedType_of_present upperMissing middle
    by_cases middleMissing : middle.allMissing = true
    · have belowType : (middle.join lower).type = lower.type :=
        joinedType_of_allMissing middleMissing lower
      rw [belowType, middleMissing, Bool.true_and] at outer
      rw [type]
      exact Or.inr (outer.resolve_left upperMissing)
    · have belowType : (middle.join lower).type = middle.type :=
        joinedType_of_present middleMissing lower
      rw [belowType] at outer
      rw [type]
      -- The middle column has a present cell, so its type lies between the other two.
      have types := (outer.resolve_left upperMissing).resolve_left (by simp [middleMissing])
      rcases inner with missing | missing | sameBelow | ⟨isFloat, isInt⟩
      · exact absurd missing middleMissing
      · exact Or.inr (Or.inl missing)
      · exact Or.inr (Or.inr (sameBelow ▸ types))
      · rcases types with same | ⟨_, middleInt⟩
        · exact Or.inr (Or.inr (Or.inr ⟨same.trans isFloat, isInt⟩))
        · cases isFloat.symm.trans middleInt

theorem widen_widen_of_joins (outer : upper.Joins (middle.join lower)) {cell : Cell}
    (member : cell ∈ lower.cells) :
    (cell.widen (middle.joinedType lower)).widen (upper.joinedType (middle.join lower)) =
      cell.widen (upper.joinedType (middle.join lower)) := by
  have belowType : (middle.join lower).type = middle.joinedType lower := rfl
  by_cases upperMissing : upper.allMissing = true
  · rw [joinedType_of_allMissing upperMissing, belowType, Cell.widen_widen]
  · rw [joinedType_of_present upperMissing]
    rcases outer with missing | missing | same | ⟨_, isInt⟩
    · exact absurd missing upperMissing
    · rw [allMissing_join, Bool.and_eq_true] at missing
      have cellMissing := List.all_eq_true.mp missing.2 cell member
      rw [Cell.widen_of_missing cellMissing]
    · rw [same, belowType, Cell.widen_widen]
    · have notFloat : middle.joinedType lower ≠ .float := by
        rw [← belowType, isInt]
        simp
      rw [Cell.widen_of_ne_float notFloat]

theorem join_join (outer : upper.Joins (middle.join lower)) :
    (upper.join middle).join lower = upper.join (middle.join lower) := by
  have middleCells : middle.cells.map (Cell.widen (upper.joinedType middle)) =
      middle.cells.map (Cell.widen (upper.joinedType (middle.join lower))) := by
    apply List.map_congr_left
    intro cell member
    by_cases missing : middle.allMissing = true
    · have cellMissing := List.all_eq_true.mp missing cell member
      rw [Cell.widen_of_missing cellMissing, Cell.widen_of_missing cellMissing]
    · simp [joinedType, join, missing]
  have lowerCells : (lower.cells.map (Cell.widen (middle.joinedType lower))).map
        (Cell.widen (upper.joinedType (middle.join lower))) =
      lower.cells.map (Cell.widen (upper.joinedType (middle.join lower))) := by
    rw [List.map_map]
    exact List.map_congr_left fun cell member => widen_widen_of_joins outer member
  apply Column.eq_of_parts
  · rfl
  · exact joinedType_join upper middle lower
  · calc
      ((upper.join middle).join lower).cells =
          upper.cells ++ middle.cells.map (Cell.widen (upper.joinedType middle)) ++
            lower.cells.map (Cell.widen (upper.joinedType (middle.join lower))) := by
        rw [← joinedType_join]
        rfl
      _ = upper.cells ++ middle.cells.map (Cell.widen (upper.joinedType (middle.join lower))) ++
            (lower.cells.map (Cell.widen (middle.joinedType lower))).map
              (Cell.widen (upper.joinedType (middle.join lower))) := by
        rw [middleCells, lowerCells]
      _ = (upper.join (middle.join lower)).cells := by
        simp [join]

end Column

namespace Table

theorem column?_appended (upper lower : Table) (name : String) :
    (upper.appended lower).column? name = (upper.column? name).map lower.joinIn := by
  simp [column?, appended, List.find?_map, name_joinIn]

namespace Joinable

variable {upper middle lower : Table}

theorem exists_below_two (inner : middle.Joinable lower)
    (outer : upper.Joinable (middle.appended lower)) {first : Column}
    (member : first ∈ upper.columns) :
    ∃ second third, middle.column? first.name = some second ∧
      lower.column? first.name = some third ∧ second.Joins third ∧
        first.Joins (second.join third) := by
  obtain ⟨joined, found, joins⟩ := outer.exists_below member
  rw [column?_appended, Option.map_eq_some_iff] at found
  obtain ⟨second, secondFound, rfl⟩ := found
  obtain ⟨secondMember, secondName⟩ := mem_of_column? secondFound
  obtain ⟨third, thirdFound, innerJoins⟩ := inner.exists_below secondMember
  rw [joinIn_of_column? thirdFound] at joins
  exact ⟨second, third, secondFound, secondName ▸ thirdFound, innerJoins, joins⟩

theorem of_outer (middleWellFormed : middle.WellFormed) (inner : middle.Joinable lower)
    (outer : upper.Joinable (middle.appended lower)) : upper.Joinable middle := by
  refine ⟨by simpa [names_appended] using outer.sameNames, ?_⟩
  intro first member second secondMember sameName
  obtain ⟨other, _, found, _, _, joins⟩ := inner.exists_below_two outer member
  rw [sameName, middleWellFormed.column?_name secondMember] at found
  obtain rfl := Option.some.inj found
  exact Column.joins_of_joins_join joins

theorem appended (lowerWellFormed : lower.WellFormed) (inner : middle.Joinable lower)
    (outer : upper.Joinable (middle.appended lower)) : (upper.appended middle).Joinable lower := by
  have sameNames : ∀ name, name ∈ upper.names ↔ name ∈ middle.names := by
    simpa [names_appended] using outer.sameNames
  refine ⟨fun name => by rw [names_appended, sameNames, inner.sameNames], ?_⟩
  intro joined member third thirdMember sameName
  obtain ⟨first, firstMember, rfl⟩ := List.mem_map.mp member
  obtain ⟨second, other, secondFound, thirdFound, innerJoins, joins⟩ :=
    inner.exists_below_two outer firstMember
  rw [name_joinIn] at sameName
  rw [sameName, lowerWellFormed.column?_name thirdMember] at thirdFound
  obtain rfl := Option.some.inj thirdFound
  rw [joinIn_of_column? secondFound]
  exact Column.join_joins innerJoins joins

theorem appended_appended (inner : middle.Joinable lower)
    (outer : upper.Joinable (middle.appended lower)) :
    (upper.appended middle).appended lower = upper.appended (middle.appended lower) := by
  have sameColumns : (upper.columns.map middle.joinIn).map lower.joinIn =
      upper.columns.map (middle.appended lower).joinIn := by
    rw [List.map_map]
    apply List.map_congr_left
    intro first member
    obtain ⟨second, third, secondFound, thirdFound, _, joins⟩ :=
      inner.exists_below_two outer member
    have thirdBelow : lower.column? (first.join second).name = some third := thirdFound
    have thirdUnder : lower.column? second.name = some third :=
      (mem_of_column? secondFound).2 ▸ thirdFound
    have joinedFound : (middle.appended lower).column? first.name = some (second.join third) := by
      rw [column?_appended, secondFound, Option.map_some, joinIn_of_column? thirdUnder]
    rw [Function.comp_apply, joinIn_of_column? secondFound, joinIn_of_column? thirdBelow,
      joinIn_of_column? joinedFound, Column.join_join joins]
  have sameSize := Nat.add_assoc upper.size middle.size lower.size
  simp only [Table.appended] at sameColumns sameSize ⊢
  rw [sameColumns, sameSize]

end Joinable

/-- What can be appended in one piece can be appended piece by piece, to the same table. -/
theorem WellFormed.concat_regroups {upper middle lower below whole : Table}
    (wellFormed : upper.WellFormed) (middleWellFormed : middle.WellFormed)
    (lowerWellFormed : lower.WellFormed) (inner : middle.concat lower = .ok below)
    (outer : upper.concat below = .ok whole) :
    ∃ above, upper.concat middle = .ok above ∧ above.concat lower = .ok whole := by
  have belowWellFormed := middleWellFormed.concat lowerWellFormed inner
  obtain ⟨innerJoinable, rfl⟩ := (middleWellFormed.concat_eq_ok_iff lowerWellFormed).mp inner
  obtain ⟨outerJoinable, rfl⟩ := (wellFormed.concat_eq_ok_iff belowWellFormed).mp outer
  have joinable := innerJoinable.of_outer middleWellFormed outerJoinable
  have above := (wellFormed.concat_eq_ok_iff middleWellFormed).mpr ⟨joinable, rfl⟩
  have aboveWellFormed := wellFormed.concat middleWellFormed above
  have aboveJoinable := innerJoinable.appended lowerWellFormed outerJoinable
  refine ⟨upper.appended middle, above,
    (aboveWellFormed.concat_eq_ok_iff lowerWellFormed).mpr ⟨aboveJoinable, ?_⟩⟩
  exact (innerJoinable.appended_appended outerJoinable).symm

theorem WellFormed.concat_regroups_widened :
    let upper : Table := ⟨[⟨"x", .float, [.float 1]⟩, ⟨"y", .text, [.null]⟩], 1⟩
    let middle : Table := ⟨[⟨"y", .float, [.float notANumber]⟩, ⟨"x", .int, [.int 2]⟩], 1⟩
    let lower : Table := ⟨[⟨"x", .int, [.int 3]⟩, ⟨"y", .int, [.int 4]⟩], 1⟩
    let below : Table :=
      ⟨[⟨"y", .int, [.float notANumber, .int 4]⟩, ⟨"x", .int, [.int 2, .int 3]⟩], 2⟩
    let whole : Table :=
      ⟨[⟨"x", .float, [.float 1, .float (ofInt 2), .float (ofInt 3)]⟩,
        ⟨"y", .int, [.null, .float notANumber, .int 4]⟩], 3⟩
    (upper.WellFormed ∧ middle.WellFormed ∧ lower.WellFormed) ∧
      middle.concat lower = .ok below ∧ upper.concat below = .ok whole ∧
        ∃ above, upper.concat middle = .ok above ∧ above.concat lower = .ok whole := by
  intro upper middle lower below whole
  have wellFormed : upper.WellFormed ∧ middle.WellFormed ∧ lower.WellFormed := by decide +kernel
  have inner : middle.concat lower = .ok below := by rfl
  have outer : upper.concat below = .ok whole := by rfl
  exact ⟨wellFormed, inner, outer,
    concat_regroups wellFormed.1 wellFormed.2.1 wellFormed.2.2 inner outer⟩

/-- Floats below integers can be appended after them to floats, but not with them. -/
example :
    let upper : Table := ⟨[⟨"x", .float, [.float 1]⟩], 1⟩
    let middle : Table := ⟨[⟨"x", .int, [.int 2]⟩], 1⟩
    ((do (← upper.concat middle).concat upper).toOption.isSome = true) ∧
      ((do upper.concat (← middle.concat upper)).toOption.isSome = false) := by
  decide +kernel

end Table

end TableSieve
