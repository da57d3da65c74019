/-!
Sets of names and maps from names, as lists in ascending order of the names. Names are ordered by
their characters' code points; inserting keeps the order and leaves one entry to a name.
-/

namespace TableSieve

def insertName (name : String) : List String → List String
  | [] => [name]
  | other :: rest =>
    if name < other then name :: other :: rest
    else if name = other then other :: rest
    else other :: insertName name rest

def sortNames (names : List String) : List String :=
  names.foldr insertName []

abbrev NameMap (α : Type) := List (String × α)

namespace NameMap

def alter {α : Type} (name : String) (change : Option α → α) : NameMap α → NameMap α
  | [] => [(name, change none)]
  | (other, value) :: rest =>
    if name < other then (name, change none) :: (other, value) :: rest
    else if name = other then (other, change (some value)) :: rest
    else (other, value) :: alter name change rest

def insert {α : Type} (name : String) (value : α) (map : NameMap α) : NameMap α :=
  map.alter name fun _ => value

def get? {α : Type} (map : NameMap α) (name : String) : Option α :=
  (List.find? (·.1 == name) map).map (·.2)

/-- The last of several entries for one name wins. -/
def ofEntries {α : Type} (entries : List (String × α)) : NameMap α :=
  entries.foldl (fun map entry => insert entry.1 entry.2 map) []

def names {α : Type} (map : NameMap α) : List String :=
  List.map (·.1) map

def Ascending {α : Type} (map : NameMap α) : Prop :=
  map.names.Pairwise (· < ·)

end NameMap

theorem mem_insertName {name other : String} {names : List String} :
    other ∈ insertName name names ↔ other = name ∨ other ∈ names := by
  induction names with
  | nil => simp [insertName]
  | cons head rest ih =>
      simp only [insertName]
      split
      · simp
      · split
        · rename_i same
          subst same
          simp
        · simp only [List.mem_cons, ih]
          exact ⟨fun member => by rcases member with rfl | rfl | member <;> simp [*],
            fun member => by rcases member with rfl | rfl | member <;> simp [*]⟩

theorem mem_sortNames {name : String} {names : List String} :
    name ∈ sortNames names ↔ name ∈ names := by
  induction names with
  | nil => simp [sortNames]
  | cons head rest ih =>
      simp only [sortNames, List.foldr_cons, mem_insertName, List.mem_cons]
      exact or_congr_right ih

end TableSieve
