import TableSieve.Proofs.Rows

/-!
Marks and positions. Keeping the marked rows is taking the rows at the marked positions, which
ascend; the first keys of their classes are marked where they occur for the first time.
-/

namespace TableSieve

def markedPositions (marks : List Bool) : List Nat :=
  (List.range marks.length).filter fun position => marks[position]? == some true

theorem mem_markedPositions {marks : List Bool} {position : Nat} :
    position ∈ markedPositions marks ↔ marks[position]? = some true := by
  simp only [markedPositions, List.mem_filter, List.mem_range, beq_iff_eq, and_iff_right_iff_imp]
  intro marked
  exact (List.getElem?_eq_some_iff.mp marked).1

theorem markedPositions_ascending (marks : List Bool) :
    (markedPositions marks).Pairwise (· < ·) :=
  List.pairwise_lt_range.filter _

theorem markedPositions_cons (mark : Bool) (marks : List Bool) :
    markedPositions (mark :: marks) =
      (if mark then [0] else []) ++ (markedPositions marks).map Nat.succ := by
  rw [markedPositions, List.length_cons, List.range_succ_eq_map, List.filter_cons, List.filter_map]
  cases mark <;> simp [markedPositions, Function.comp_def]

theorem length_markedPositions (marks : List Bool) :
    (markedPositions marks).length = marks.count true := by
  induction marks with
  | nil => rfl
  | cons mark marks ih =>
      rw [markedPositions_cons]
      cases mark <;> simp [ih]

theorem keepMarked_eq_gather {α : Type} (marks : List Bool) (items : List α) :
    keepMarked marks items = gather (markedPositions marks) items := by
  rw [gather_eq_filterMap]
  induction marks generalizing items with
  | nil => rfl
  | cons mark marks ih =>
      rw [markedPositions_cons, List.filterMap_append, List.filterMap_map]
      cases items with
      | nil => cases mark <;> simp [keepMarked]
      | cons item items =>
          have shifted : (fun position => (item :: items)[position]?) ∘ Nat.succ =
              fun position => items[position]? := rfl
          rw [shifted, ← ih]
          cases mark <;> simp [keepMarked]

theorem getElem?_markFirstsAfter {marked : Std.HashSet String} {seen : List String}
    (same : ∀ other, other ∈ marked ↔ other ∈ seen) {keys : List String} {position : Nat} :
    (markFirstsAfter marked keys)[position]? = some true ↔
      ∃ key, keys[position]? = some key ∧ key ∉ seen ++ keys.take position := by
  induction keys generalizing marked seen position with
  | nil => simp [markFirstsAfter]
  | cons first keys ih =>
      cases position with
      | zero => simp [markFirstsAfter, same]
      | succ position =>
          have inserted : ∀ other, other ∈ marked.insert first ↔ other ∈ seen ++ [first] := by
            intro other
            rw [Std.HashSet.mem_insert, beq_iff_eq, same, List.mem_append, List.mem_singleton,
              or_comm, eq_comm]
          simp [markFirstsAfter, ih inserted]

theorem getElem?_markFirsts {keys : List String} {position : Nat} :
    (markFirsts keys)[position]? = some true ↔
      ∃ key, keys[position]? = some key ∧ key ∉ keys.take position := by
  have none : ∀ other, other ∈ (∅ : Std.HashSet String) ↔ other ∈ ([] : List String) := by simp
  exact getElem?_markFirstsAfter none

theorem length_markFirsts (keys : List String) : (markFirsts keys).length = keys.length := by
  suffices ∀ seen, (markFirstsAfter seen keys).length = keys.length from this ∅
  induction keys with
  | nil => exact fun seen => rfl
  | cons key keys ih => exact fun seen => by simp [markFirstsAfter, ih]

theorem Table.filter_eq_take {table : Table} {mask : List Bool} (short : mask.length ≤ table.size) :
    table.filter mask = table.take (markedPositions mask) := by
  rw [filter, take, List.take_of_length_le short, length_markedPositions]
  congr 1
  funext cells
  exact keepMarked_eq_gather mask cells

end TableSieve
