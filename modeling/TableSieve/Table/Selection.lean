import Std.Data.HashSet

/-!
Selecting elements of a list: those marked by a mask, those at given positions, and the first of
each class of equal keys.
-/

namespace TableSieve

def keepMarked {α : Type} : List Bool → List α → List α
  | true :: marks, item :: items => item :: keepMarked marks items
  | false :: marks, _ :: items => keepMarked marks items
  | _, _ => []

/-- The elements at the positions, in the order of the positions. A position out of range, at which
the program would stop, gives nothing. -/
def gather {α : Type} (positions : List Nat) (items : List α) : List α :=
  let indexed := items.toArray
  positions.filterMap fun position => indexed[position]?

def markFirstsAfter (seen : Std.HashSet String) : List String → List Bool
  | [] => []
  | key :: keys => (!seen.contains key) :: markFirstsAfter (seen.insert key) keys

def markFirsts (keys : List String) : List Bool :=
  markFirstsAfter ∅ keys

end TableSieve
