import Mathlib.Data.List.Nodup
import Mathlib.Data.List.Perm.Basic
import Mathlib.Data.String.Basic
import TableSieve.Names
import TableSieve.Proofs.Lists

/-!
Laws of maps from names. Changing the value of a name keeps the names in ascending order, and a map
in that order has one entry to a name; so such maps are equal if they give equal values.
-/

namespace TableSieve

namespace NameMap

variable {α : Type}

theorem get?_cons (entry : String × α) (map : NameMap α) (name : String) :
    get? (entry :: map) name = if entry.1 = name then some entry.2 else get? map name := by
  by_cases same : entry.1 = name <;> simp [get?, same]

theorem isSome_get?_iff {map : NameMap α} {name : String} :
    (map.get? name).isSome = true ↔ name ∈ map.names := by
  induction map with
  | nil => simp [get?, names]
  | cons entry rest ih =>
      rw [get?_cons, names, List.map_cons, List.mem_cons, ← names, ← ih]
      by_cases same : entry.1 = name
      · simp [same]
      · simp [same, Ne.symm same]

theorem get?_eq_none_iff {map : NameMap α} {name : String} :
    map.get? name = none ↔ name ∉ map.names := by
  rw [← isSome_get?_iff, Bool.not_eq_true, Option.isSome_eq_false_iff, Option.isNone_iff_eq_none]

theorem get?_append (front rear : NameMap α) (name : String) :
    get? (front ++ rear) name = (get? front name).or (get? rear name) := by
  simp [get?, Option.map_or]

theorem mem_names_alter {name other : String} {change : Option α → α} {map : NameMap α} :
    other ∈ (map.alter name change).names ↔ other = name ∨ other ∈ map.names := by
  induction map with
  | nil => simp [alter, names]
  | cons entry rest ih =>
      obtain ⟨first, present⟩ := entry
      rw [alter]
      split
      · simp [names]
      · split
        · rename_i same
          simp [names, same]
        · simp only [names, List.map_cons, List.mem_cons] at ih ⊢
          rw [ih, or_left_comm]

namespace Ascending

variable {map other : NameMap α}

theorem distinct (ascending : map.Ascending) : map.names.Nodup :=
  List.Pairwise.imp (fun {_ _} less => less.ne) ascending

theorem alter (ascending : map.Ascending) (name : String)
    (change : Option α → α) : (map.alter name change).Ascending := by
  induction map with
  | nil => exact List.pairwise_singleton ..
  | cons entry rest ih =>
      obtain ⟨first, present⟩ := entry
      obtain ⟨above, later⟩ := List.pairwise_cons.mp ascending
      rw [NameMap.alter]
      split
      · rename_i below
        refine List.pairwise_cons.mpr ⟨?_, ascending⟩
        exact List.forall_mem_cons.mpr ⟨below, fun other member => below.trans (above other member)⟩
      · rename_i notBelow
        split
        · exact ascending
        · rename_i different
          have above' : first < name := lt_of_le_of_ne (not_lt.mp notBelow) (Ne.symm different)
          refine List.pairwise_cons.mpr ⟨fun other member => ?_, ih later⟩
          rcases mem_names_alter.mp member with rfl | old
          · exact above'
          · exact above other old

/-- Only in an ascending map is a name that comes before the first one known to be absent. -/
theorem get?_alter (ascending : map.Ascending) (name : String)
    (change : Option α → α) (other : String) : (map.alter name change).get? other =
      if name = other then some (change (map.get? name)) else map.get? other := by
  induction map with
  | nil => simp [NameMap.alter, get?]
  | cons entry rest ih =>
      obtain ⟨first, present⟩ := entry
      obtain ⟨above, later⟩ := List.pairwise_cons.mp ascending
      rw [NameMap.alter]
      split
      · rename_i below
        have absent : get? ((first, present) :: rest) name = none := by
          refine get?_eq_none_iff.mpr fun member => ?_
          rcases List.mem_cons.mp member with rfl | old
          · exact lt_irrefl _ below
          · exact lt_asymm below (above name old)
        rw [get?_cons, absent]
      · split
        · rename_i same
          subst same
          simp only [get?_cons, if_true]
          split <;> rfl
        · rename_i different
          rw [get?_cons, ih later, get?_cons, get?_cons, if_neg (Ne.symm different)]
          by_cases here : first = other
          · simp [here, here ▸ different]
          · simp [here]

theorem insert (ascending : map.Ascending) (name : String) (value : α) :
    (map.insert name value).Ascending :=
  ascending.alter name _

theorem get?_insert (ascending : map.Ascending) (name : String) (value : α)
    (other : String) : (map.insert name value).get? other =
      if name = other then some value else map.get? other :=
  ascending.get?_alter name _ other

theorem get?_eq_some_iff (ascending : map.Ascending) {name : String} {value : α} :
    map.get? name = some value ↔ (name, value) ∈ map := by
  constructor
  · intro found
    obtain ⟨⟨label, _⟩, present, rfl⟩ := Option.map_eq_some_iff.mp found
    obtain rfl : label = name := by simpa using List.find?_some present
    exact List.mem_of_find?_eq_some present
  · intro member
    have found : map.find? (·.1 == name) = some (name, value) :=
      find?_of_distinct ascending.distinct member
    rw [get?, found, Option.map_some]

theorem eq_of_get?_eq (ascending : map.Ascending)
    (otherAscending : other.Ascending) (same : ∀ name, map.get? name = other.get? name) :
    map = other := by
  have permuted : map.Perm other := by
    refine (List.perm_ext_iff_of_nodup (ascending.distinct.of_map _)
      (otherAscending.distinct.of_map _)).mpr fun entry => ?_
    rw [← ascending.get?_eq_some_iff, same, otherAscending.get?_eq_some_iff]
  have ordered : map.Pairwise fun entry later => entry.1 < later.1 := List.pairwise_map.mp ascending
  have otherOrdered : other.Pairwise fun entry later => entry.1 < later.1 :=
    List.pairwise_map.mp otherAscending
  exact permuted.eq_of_pairwise (fun _ _ _ _ less greater => absurd less (lt_asymm greater))
    ordered otherOrdered

end Ascending

end NameMap

end TableSieve
