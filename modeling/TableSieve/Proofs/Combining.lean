import Mathlib.Data.List.Forall2
import TableSieve.Proofs.Positions
import TableSieve.Proofs.Validating

/-!
What combination rules keep. Every rule that was read has one matcher for each source field in each
of its conditions, so that no field goes unmatched. The rules narrow a table one after another, but
each looks at one row at a time: together they keep the rows that every condition of every rule
admits, in whatever order rules and conditions stand.
-/

namespace TableSieve

/-! The number of matchers. -/

namespace Condition

theorem length_when_of {source : SourceFields} {key : String} {when : List Matcher}
    {allowed : ScalarList} {condition : Condition}
    (built : of source key when allowed = .ok condition) :
    condition.when.length = source.arity := by
  unfold of at built
  split at built
  · cases built
  · rename_i fits
    obtain rfl := Except.ok.inj built
    simpa using fits

theorem length_when_ofEntry {source : SourceFields} {entry : String × ScalarList}
    {condition : Condition} (built : ofEntry source entry = .ok condition) :
    condition.when.length = source.arity := by
  obtain ⟨when, _, whole⟩ := bind_eq_ok_iff.mp built
  exact length_when_of whole

theorem length_when_ofShape {source : SourceFields} {shape : ConditionShape}
    {condition : Condition} (built : ofShape source shape = .ok condition) :
    condition.when.length = source.arity :=
  length_when_of built

end Condition

namespace CombinationRule

def Proper (rule : CombinationRule) : Prop :=
  ∀ condition ∈ rule.conditions, condition.when.length = rule.source.arity

theorem proper_of {source : SourceFields} {target : String} {conditions : List Condition}
    {rule : CombinationRule} (built : of source target conditions = .ok rule)
    (proper : ∀ condition ∈ conditions, condition.when.length = source.arity) : rule.Proper := by
  unfold of at built
  split at built
  · cases built
  · split at built
    · cases built
    · obtain rfl := Except.ok.inj built
      exact proper

theorem proper_ofPair {fields : NameMap String} {conditions : NameMap ScalarList}
    {rule : CombinationRule} (built : ofPair fields conditions = .ok rule) : rule.Proper := by
  unfold ofPair at built
  split at built
  · split at built
    · cases built
    · obtain ⟨read, visited, whole⟩ := bind_eq_ok_iff.mp built
      refine proper_of whole fun condition member => ?_
      obtain ⟨entry, _, given⟩ := exists_of_mem_mapM visited member
      exact Condition.length_when_ofEntry given
  · cases built

theorem proper_ofShape {shape : CombinationShape} {rule : CombinationRule}
    (built : ofShape shape = .ok rule) : rule.Proper := by
  cases shape with
  | pair fields conditions => exact proper_ofPair built
  | parts names target conditions =>
      obtain ⟨source, _, rest⟩ := bind_eq_ok_iff.mp built
      obtain ⟨read, visited, whole⟩ := bind_eq_ok_iff.mp rest
      refine proper_of whole fun condition member => ?_
      obtain ⟨shape, _, given⟩ := exists_of_mem_mapM visited member
      exact Condition.length_when_ofShape given

end CombinationRule

namespace Combinations

def Proper (combinations : Combinations) : Prop :=
  ∀ rule ∈ combinations.rules, rule.Proper

theorem proper_ofShapes {index : Nat} {shapes : List CombinationShape}
    {rules : List CombinationRule} (built : ofShapes index shapes = .ok rules) :
    ∀ rule ∈ rules, rule.Proper := by
  induction shapes generalizing index rules with
  | nil =>
      obtain rfl := Except.ok.inj built
      simp
  | cons shape shapes ih =>
      unfold ofShapes at built
      cases first : CombinationRule.ofShape shape with
      | error fault => simp [first] at built
      | ok rule =>
          cases rest : ofShapes (index + 1) shapes with
          | error fault => simp [first, rest, Except.map] at built
          | ok others =>
              simp only [first, rest, Except.map, Except.ok.injEq] at built
              subst built
              exact List.forall_mem_cons.mpr ⟨CombinationRule.proper_ofShape first, ih rest⟩

theorem proper_of_read {json : Json} {combinations : Combinations}
    (accepted : read json = .ok combinations) : combinations.Proper := by
  obtain ⟨shapes, _, built⟩ := bind_eq_ok_iff.mp accepted
  cases given : ofShapes 0 shapes with
  | error fault => simp [given, Except.map] at built
  | ok rules =>
      simp only [given, Except.map, Except.ok.injEq] at built
      subst built
      exact proper_ofShapes given

end Combinations

/-! What the rules say about a row, whose cells are given by the names of their fields. -/

variable {table : Table}

def Matcher.AcceptsField (matcher : Matcher) (cells : String → Option Cell) (name : String) : Prop :=
  ∃ cell, cells name = some cell ∧ matcher.accepts cell = true

namespace Condition

def Matches (condition : Condition) (names : List String) (cells : String → Option Cell) : Prop :=
  List.Forall₂ (fun matcher name => matcher.AcceptsField cells name) condition.when names

theorem all_accepts_iff {when : List Matcher} {names : List String}
    {cells : String → Option Cell} {cellOf : String → Cell} (arity : when.length = names.length)
    (known : ∀ name ∈ names, cells name = some (cellOf name)) :
    ((when.zip (names.map cellOf)).all fun pair => pair.1.accepts pair.2) = true ↔
      List.Forall₂ (fun matcher name => matcher.AcceptsField cells name) when names := by
  induction when generalizing names with
  | nil =>
      have none : names = [] := List.eq_nil_of_length_eq_zero arity.symm
      simp [none]
  | cons matcher when ih =>
      cases names with
      | nil => simp at arity
      | cons name names =>
          obtain ⟨first, rest⟩ := List.forall_mem_cons.mp known
          rw [List.map_cons, List.zip_cons_cons, List.all_cons, Bool.and_eq_true,
            List.forall₂_cons, ih (by simpa using arity) rest]
          simp [Matcher.AcceptsField, first]

end Condition

namespace CombinationRule

/-- Under every condition that the source fields match, some allowed matcher accepts the target. -/
def Admits (rule : CombinationRule) (cells : String → Option Cell) : Prop :=
  ∀ condition ∈ rule.conditions, condition.Matches rule.source.names cells →
    ∃ matcher ∈ condition.allowed, matcher.AcceptsField cells rule.target

def Ignores (rule : CombinationRule) (cells : String → Option Cell) : Prop :=
  ∀ condition ∈ rule.conditions, ¬condition.Matches rule.source.names cells

theorem Ignores.admits {rule : CombinationRule} {cells : String → Option Cell}
    (ignores : rule.Ignores cells) : rule.Admits cells :=
  fun condition member applies => absurd applies (ignores condition member)

theorem holds_iff {rule : CombinationRule} (proper : rule.Proper) {cells : String → Option Cell}
    {cellOf : String → Cell} (known : ∀ name ∈ rule.fieldList, cells name = some (cellOf name)) :
    rule.holds (rule.source.names.map cellOf) (cellOf rule.target) = true ↔ rule.Admits cells := by
  have targetKnown := known rule.target (by simp [fieldList])
  simp only [holds, List.all_eq_true, Bool.or_eq_true, Bool.not_eq_true', Admits]
  refine forall₂_congr fun condition member => ?_
  have applies : condition.applies (rule.source.names.map cellOf) = true ↔
      condition.Matches rule.source.names cells :=
    Condition.all_accepts_iff (proper condition member) fun name inside =>
      known name (List.mem_append_left _ inside)
  have allows : condition.allows (cellOf rule.target) = true ↔
      ∃ matcher ∈ condition.allowed, matcher.AcceptsField cells rule.target := by
    simp [Condition.allows, Matcher.AcceptsField, targetKnown]
  rw [← applies, ← allows, ← Bool.not_eq_true, imp_iff_not_or]

def Reorders (rule other : CombinationRule) : Prop :=
  rule.source = other.source ∧ rule.target = other.target ∧ rule.conditions.Perm other.conditions

theorem Reorders.admits_iff {rule other : CombinationRule} (reorders : rule.Reorders other)
    (cells : String → Option Cell) : rule.Admits cells ↔ other.Admits cells := by
  obtain ⟨sameSource, sameTarget, conditions⟩ := reorders
  simp only [Admits, sameSource, sameTarget, conditions.mem_iff]

theorem Reorders.fieldList_eq {rule other : CombinationRule} (reorders : rule.Reorders other) :
    rule.fieldList = other.fieldList := by
  rw [fieldList, fieldList, reorders.1, reorders.2.1]

theorem Reorders.proper_iff {rule other : CombinationRule} (reorders : rule.Reorders other) :
    rule.Proper ↔ other.Proper := by
  simp only [Proper, reorders.1, reorders.2.2.mem_iff]

end CombinationRule

namespace Combinations

def Admits (combinations : Combinations) (cells : String → Option Cell) : Prop :=
  ∀ rule ∈ combinations.rules, rule.Admits cells

def Reorders (combinations other : Combinations) : Prop :=
  ∃ rules, combinations.rules.Perm rules ∧
    List.Forall₂ CombinationRule.Reorders rules other.rules

theorem forall_fields_iff {combinations : Combinations} {names : List String} :
    (∀ field ∈ combinations.fields, field ∈ names) ↔
      ∀ rule ∈ combinations.rules, ∀ field ∈ rule.fieldList, field ∈ names := by
  simp only [fields, mem_sortNames, List.mem_flatMap]
  exact ⟨fun known rule member field inside => known field ⟨rule, member, inside⟩,
    fun known field ⟨rule, member, inside⟩ => known rule member field inside⟩

theorem Reorders.forall_iff {combinations other : Combinations}
    (reorders : combinations.Reorders other) {holds : CombinationRule → Prop}
    (same : ∀ rule changed, rule.Reorders changed → (holds rule ↔ holds changed)) :
    (∀ rule ∈ combinations.rules, holds rule) ↔ ∀ rule ∈ other.rules, holds rule := by
  obtain ⟨rules, perm, changed⟩ := reorders
  simp only [perm.mem_iff]
  clear perm
  generalize other.rules = others at changed ⊢
  induction changed with
  | nil => simp
  | cons first _ ih => rw [List.forall_mem_cons, List.forall_mem_cons, same _ _ first, ih]

end Combinations

/-! What the rules keep of a table. -/

theorem Table.WellFormed.filter_filter (wellFormed : table.WellFormed)
    (first second : List Cell → Bool) :
    (table.filter (table.rows.map first)).filter
        ((table.filter (table.rows.map first)).rows.map second) =
      table.filter (table.rows.map fun row => first row && second row) := by
  apply ((wellFormed.filter _).filter _).eq_of_rows (wellFormed.filter _)
  · simp only [Table.schema_filter]
  · simp only [Table.rows_filter, keepMarked_map_marks, List.filter_filter, Bool.and_comm]

namespace Combinations

def keeps (schema : List (String × CellType)) (combinations : Combinations) (row : List Cell) :
    Bool :=
  combinations.rules.all fun rule =>
    rule.holds (rule.source.names.map (fieldOf schema row)) (fieldOf schema row rule.target)

theorem keeps_iff (wellFormed : table.WellFormed) {combinations : Combinations}
    (proper : combinations.Proper)
    (known : ∀ rule ∈ combinations.rules, ∀ field ∈ rule.fieldList, field ∈ table.schema.map (·.1))
    {row : List Cell} (member : row ∈ table.rows) :
    combinations.keeps table.schema row = true ↔ combinations.Admits (table.onRow row) := by
  simp only [keeps, List.all_eq_true, Admits]
  refine forall₂_congr fun rule inside => ?_
  exact CombinationRule.holds_iff (proper rule inside) fun name field =>
    wellFormed.onRow_eq_some member (known rule inside name field)

theorem steps_apply_eq_done (wellFormed : table.WellFormed) {schema : List (String × CellType)}
    (sameSchema : table.schema = schema) {rules : List CombinationRule}
    (known : ∀ rule ∈ rules, ∀ field ∈ rule.fieldList, field ∈ schema.map (·.1)) :
    Filtering.steps CombinationRule.apply rules table =
      .done (table.filter (table.rows.map (Combinations.keeps schema ⟨rules⟩))) := by
  induction rules generalizing table with
  | nil =>
      have everything : table.filter (table.rows.map fun _ => true) = table := by
        apply (wellFormed.filter _).eq_of_rows wellFormed (Table.schema_filter _)
        rw [Table.rows_filter, keepMarked_map_marks, List.filter_eq_self]
        exact fun row member => rfl
      exact congrArg Filtering.done everything.symm
  | cons rule rules ih =>
      obtain ⟨first, rest⟩ := List.forall_mem_cons.mp known
      have applied : rule.apply table = .done (table.filter (table.rows.map fun row =>
          rule.holds (rule.source.names.map (fieldOf schema row))
            (fieldOf schema row rule.target))) := by
        subst sameSchema
        rw [CombinationRule.apply, CombinationRule.keptRows_eq_ok wellFormed first]
      -- The later rules test the rows that are left, in a table of the same schema.
      have later := ih (wellFormed.filter (table.rows.map fun row =>
        rule.holds (rule.source.names.map (fieldOf schema row)) (fieldOf schema row rule.target)))
        ((Table.schema_filter _).trans sameSchema) rest
      rw [wellFormed.filter_filter] at later
      rw [Filtering.steps, applied]
      exact later

theorem apply_eq_done (wellFormed : table.WellFormed) {combinations : Combinations}
    (known : ∀ field ∈ combinations.fields, field ∈ table.schema.map (·.1)) :
    (Constraint.combinations combinations).apply table =
      .done (table.filter (table.rows.map (combinations.keeps table.schema))) := by
  have valid : (Constraint.combinations combinations).validate table = .ok () :=
    Constraint.validate_eq_ok known
  rw [Constraint.apply, valid]
  exact steps_apply_eq_done wellFormed rfl (forall_fields_iff.mp known)

theorem Reorders.apply_eq (wellFormed : table.WellFormed) {combinations other : Combinations}
    (reorders : combinations.Reorders other) (proper : combinations.Proper)
    (known : ∀ field ∈ combinations.fields, field ∈ table.schema.map (·.1)) :
    (Constraint.combinations other).apply table =
      (Constraint.combinations combinations).apply table := by
  have otherKnown : ∀ field ∈ other.fields, field ∈ table.schema.map (·.1) := by
    rw [forall_fields_iff, ← reorders.forall_iff fun rule changed reordered => by
      rw [reordered.fieldList_eq]]
    exact forall_fields_iff.mp known
  have otherProper : other.Proper :=
    (reorders.forall_iff fun rule changed reordered => reordered.proper_iff).mp proper
  rw [apply_eq_done wellFormed otherKnown, apply_eq_done wellFormed known]
  congr 2
  refine List.map_congr_left fun row member => ?_
  rw [Bool.eq_iff_iff, keeps_iff wellFormed proper (forall_fields_iff.mp known) member,
    keeps_iff wellFormed otherProper (forall_fields_iff.mp otherKnown) member]
  exact (reorders.forall_iff fun rule changed reordered => reordered.admits_iff _).symm

theorem apply_eq_apply_iff (wellFormed : table.WellFormed) {rule other : CombinationRule}
    (proper : rule.Proper) (otherProper : other.Proper)
    (known : ∀ field ∈ rule.fieldList, table.hasColumn field = true)
    (otherKnown : ∀ field ∈ other.fieldList, table.hasColumn field = true) :
    ∃ kept otherKept, (Constraint.combinations ⟨[rule]⟩).apply table = .done kept ∧
      (Constraint.combinations ⟨[other]⟩).apply table = .done otherKept ∧
      (kept = otherKept ↔
        ∀ row ∈ table.rows, rule.Admits (table.onRow row) ↔ other.Admits (table.onRow row)) := by
  have fields {rule : CombinationRule}
      (known : ∀ field ∈ rule.fieldList, table.hasColumn field = true) :
      ∀ one ∈ [rule], ∀ field ∈ one.fieldList, field ∈ table.schema.map (·.1) := by
    simpa using fun field inside => Table.hasColumn_iff.mp (known field inside)
  have admits {rule : CombinationRule} (proper : rule.Proper)
      (known : ∀ field ∈ rule.fieldList, table.hasColumn field = true) {row : List Cell}
      (member : row ∈ table.rows) :
      keeps table.schema ⟨[rule]⟩ row = true ↔ rule.Admits (table.onRow row) := by
    rw [keeps_iff wellFormed (by simpa [Proper] using proper) (fields known) member]
    simp [Admits]
  refine ⟨_, _, apply_eq_done wellFormed (forall_fields_iff.mpr (fields known)),
    apply_eq_done wellFormed (forall_fields_iff.mpr (fields otherKnown)), ?_⟩
  have rows : (table.filter (table.rows.map (keeps table.schema ⟨[rule]⟩)) =
        table.filter (table.rows.map (keeps table.schema ⟨[other]⟩))) ↔
      table.rows.filter (keeps table.schema ⟨[rule]⟩) =
        table.rows.filter (keeps table.schema ⟨[other]⟩) := by
    rw [← keepMarked_map_marks, ← keepMarked_map_marks, ← Table.rows_filter, ← Table.rows_filter]
    refine ⟨congrArg _, fun same => ?_⟩
    exact (wellFormed.filter _).eq_of_rows (wellFormed.filter _) (by simp [Table.schema_filter]) same
  rw [rows, filter_eq_filter_iff]
  refine forall₂_congr fun row member => ?_
  rw [Bool.eq_iff_iff, admits proper known member, admits otherProper otherKnown member]

/-- What was read keeps the rows that it admits, in their order. These are the same in whatever order
the rules and conditions stand, and nothing is left to drop. -/
theorem apply_keeps_admitted {json : Json} {combinations : Combinations}
    (accepted : read json = .ok combinations) (wellFormed : table.WellFormed)
    (hasFields : ∀ field ∈ combinations.fields, table.hasColumn field = true) :
    (∀ rule ∈ combinations.rules, ∀ condition ∈ rule.conditions,
      condition.when.length = rule.source.names.length) ∧
    ∃ narrowed positions,
      (Constraint.combinations combinations).apply table = .done narrowed ∧
      narrowed = table.take positions ∧ positions.Pairwise (· < ·) ∧
      (∀ position, position ∈ positions ↔
        ∃ row, table.rows[position]? = some row ∧ combinations.Admits (table.onRow row)) ∧
      (∀ position row, table.rows[position]? = some row →
        (∀ rule ∈ combinations.rules, rule.Ignores (table.onRow row)) → position ∈ positions) ∧
      (∀ other, combinations.Reorders other →
        (Constraint.combinations other).apply table = .done narrowed) ∧
      (Constraint.combinations combinations).apply narrowed = .done narrowed := by
  have proper := proper_of_read accepted
  have known : ∀ field ∈ combinations.fields, field ∈ table.schema.map (·.1) :=
    fun field member => Table.hasColumn_iff.mp (hasFields field member)
  have admits {row : List Cell} (member : row ∈ table.rows) :=
    keeps_iff wellFormed proper (forall_fields_iff.mp known) member
  have atPosition (position : Nat) :
      position ∈ markedPositions (table.rows.map (combinations.keeps table.schema)) ↔
        ∃ row, table.rows[position]? = some row ∧ combinations.Admits (table.onRow row) := by
    rw [mem_markedPositions, List.getElem?_map, Option.map_eq_some_iff]
    refine exists_congr fun row => and_congr_right fun found => ?_
    exact admits (List.mem_of_getElem? found)
  refine ⟨proper, _, markedPositions (table.rows.map (combinations.keeps table.schema)),
    apply_eq_done wellFormed known, ?_, markedPositions_ascending _, atPosition, ?_, ?_, ?_⟩
  · exact Table.filter_eq_take (by simp [wellFormed.length_rows])
  · intro position row found ignored
    exact (atPosition position).mpr ⟨row, found, fun rule member => (ignored rule member).admits⟩
  · intro other reorders
    rw [reorders.apply_eq wellFormed proper known, apply_eq_done wellFormed known]
  · have keptWellFormed := wellFormed.filter (table.rows.map (combinations.keeps table.schema))
    have stillKnown : ∀ field ∈ combinations.fields, field ∈
        (table.filter (table.rows.map (combinations.keeps table.schema))).schema.map (·.1) := by
      rwa [Table.schema_filter]
    have again := apply_eq_done keptWellFormed stillKnown
    rw [Table.schema_filter, wellFormed.filter_filter] at again
    simpa only [Bool.and_self] using again

theorem apply_keeps_admitted_composite :
    let json : Json :=
      .array [.array [.object [("(team, floor)", .text "room")],
        .object [("(red, 1)", .text "north"), ("(blue, 2)", .array [.text "south", .null])]]]
    let rule (conditions : List Condition) : CombinationRule :=
      ⟨.composite ["team", "floor"], "room", conditions⟩
    let red : Condition :=
      ⟨[.equals (.text "red"), .equals (.text "1")], [.equals (.text "north")]⟩
    let blue : Condition :=
      ⟨[.equals (.text "blue"), .equals (.text "2")], [.equals (.text "south"), .missing]⟩
    let table : Table :=
      ⟨[⟨"team", .text, [.text "red", .text "red", .text "blue", .text "blue"]⟩,
        ⟨"floor", .text, [.text "1", .text "2", .text "2", .text "2"]⟩,
        ⟨"room", .text, [.text "south", .text "south", .null, .text "south"]⟩], 4⟩
    let narrowed : Table :=
      ⟨[⟨"team", .text, [.text "red", .text "blue", .text "blue"]⟩,
        ⟨"floor", .text, [.text "2", .text "2", .text "2"]⟩,
        ⟨"room", .text, [.text "south", .null, .text "south"]⟩], 3⟩
    read json = .ok ⟨[rule [red, blue]]⟩ ∧ table.WellFormed ∧
      (∀ field ∈ fields ⟨[rule [red, blue]]⟩, table.hasColumn field = true) ∧
      (Constraint.combinations ⟨[rule [red, blue]]⟩).apply table = .done narrowed ∧
      (Constraint.combinations ⟨[rule [blue, red]]⟩).apply table = .done narrowed := by
  intro json rule red blue table narrowed
  have accepted : read json = .ok ⟨[rule [red, blue]]⟩ := by rfl
  have wellFormed : table.WellFormed := by decide
  have hasFields : ∀ field ∈ fields ⟨[rule [red, blue]]⟩, table.hasColumn field = true := by decide
  have given : (Constraint.combinations ⟨[rule [red, blue]]⟩).apply table = .done narrowed := by
    simp only [rule, red, blue, table, narrowed]
    rfl
  obtain ⟨_, other, positions, otherGiven, _, _, _, _, reordered, _⟩ :=
    apply_keeps_admitted accepted wellFormed hasFields
  obtain rfl : other = narrowed :=
    Except.ok.inj (congrArg Filtering.result (otherGiven.symm.trans given))
  refine ⟨accepted, wellFormed, hasFields, given, reordered ⟨[rule [blue, red]]⟩ ?_⟩
  exact ⟨_, .refl _, .cons ⟨rfl, rfl, .swap blue red []⟩ .nil⟩

end Combinations

end TableSieve
