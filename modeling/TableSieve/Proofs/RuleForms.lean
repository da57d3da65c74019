import Mathlib.Data.List.Nodup
import Mathlib.Data.List.Perm.Basic
import TableSieve.Proofs.Combining
import TableSieve.Proofs.Tuples

/-!
The two forms of a combination rule. A pair of maps writes tuples in the keys of objects, which
order the conditions by these keys; a rule with named parts lists them as they come. Either way the
same conditions are read for a rule on a tuple of fields, in another order at most.
-/

namespace TableSieve

open TableSieve.Text

/-! Objects. -/

namespace NameMap

variable {α : Type}

theorem perm_insert {name : String} {value : α} {map : NameMap α}
    (isNew : name ∉ map.names) : (map.insert name value).Perm ((name, value) :: map) := by
  induction map with
  | nil => exact .refl _
  | cons entry rest ih =>
      obtain ⟨other, present⟩ := entry
      simp only [names, List.map_cons, List.mem_cons, not_or] at isNew
      unfold insert at ih ⊢
      rw [alter, if_neg isNew.1]
      split
      · exact .refl _
      · exact ((ih isNew.2).cons _).trans (.swap _ _ rest)

theorem perm_ofEntries {entries : List (String × α)} (distinct : (entries.map (·.1)).Nodup) :
    (ofEntries entries).Perm entries := by
  have onto (rest : List (String × α)) : ∀ map : NameMap α,
      (map.names ++ rest.map (·.1)).Nodup →
      (rest.foldl (fun map entry => insert entry.1 entry.2 map) map).Perm (map ++ rest) := by
    induction rest with
    | nil => intro map _; simp
    | cons entry rest ih =>
        intro map apart
        have isNew : entry.1 ∉ map.names := by
          rw [List.map_cons, List.nodup_middle] at apart
          exact fun member => (List.nodup_cons.mp apart).1 (List.mem_append_left _ member)
        have inserted : (insert entry.1 entry.2 map).Perm (entry :: map) := perm_insert isNew
        have stillApart : ((insert entry.1 entry.2 map).names ++ rest.map (·.1)).Nodup := by
          refine ((inserted.map (·.1)).append_right _).nodup_iff.mpr ?_
          rwa [List.map_cons, List.nodup_middle] at apart
        exact (ih _ stillApart).trans ((inserted.append_right rest).trans List.perm_middle.symm)
  exact onto entries [] distinct

end NameMap

/-! Reading either form. -/

namespace CombinationRule

def ReadFrom (rule : CombinationRule) (item : Json) : Prop :=
  ∃ shape, item.combination? = some shape ∧ ofShape shape = .ok rule

def paired (source target : String) (conditions : NameMap Json) : Json :=
  .array [.object [(source, .text target)], .object conditions]

def namedCondition (condition : Json × Json) : Json :=
  .object [("allow", condition.2), ("when", condition.1)]

def named (source : Json) (target : String) (conditions : List (Json × Json)) : Json :=
  .object [("conditions", .array (conditions.map namedCondition)), ("source", source),
    ("target", .text target)]

variable {rule : CombinationRule} {source : SourceFields} {target : String}
  {conditions : List Condition}

theorem readFrom_paired {text : String} {entries : NameMap Json}
    (sourceRead : SourceFields.ofText? text = some source)
    (conditionsRead : List.Forall₂ (fun entry condition => ∃ allow,
      entry.2.scalars? = some allow ∧
        Condition.ofEntry source (entry.1, allow) = .ok condition) entries conditions)
    (built : of source target conditions = .ok rule) :
    rule.ReadFrom (paired text target entries) := by
  have fields : (Json.object [(text, .text target)]).mapOf? Json.text? = some [(text, target)] :=
    rfl
  obtain ⟨allowed, isMap, read⟩ : ∃ allowed, (Json.object entries).mapOf? Json.scalars? =
      some allowed ∧ allowed.mapM (Condition.ofEntry source) = .ok conditions := by
    simp only [Json.mapOf?, mapM_eq_some_iff, mapM_eq_ok_iff]
    clear built
    induction conditionsRead with
    | nil => exact ⟨[], rfl, rfl⟩
    | @cons entry _ _ _ first _ ih =>
        obtain ⟨allow, isAllowance, read⟩ := first
        obtain ⟨allowed, areAllowances, allRead⟩ := ih
        exact ⟨(entry.1, allow) :: allowed, by simp [isAllowance, areAllowances],
          by simp [read, allRead]⟩
  refine ⟨.pair [(text, target)] allowed, ?_, ?_⟩
  · simp only [paired, Json.combination?, Json.rulePair?, fields, isMap]
    rfl
  · simp only [ofShape, ofPair, sourceRead]
    exact bind_eq_ok_iff.mpr ⟨conditions, read, built⟩

theorem condition?_namedCondition {item : Json × Json} {when allow : ScalarList}
    (isWhen : item.1.scalars? = some when) (isAllowance : item.2.scalars? = some allow) :
    (namedCondition item).condition? = some ⟨when, allow⟩ := by
  have parts : (namedCondition item).parts? ["when", "allow"] = some [item.1, item.2] := rfl
  simp only [Json.condition?, parts, isWhen, isAllowance]
  rfl

theorem readFrom_named {names : Json} {items : List (Json × Json)} {fields : OneOrMany String}
    (isSource : names.texts? = some fields) (sourceRead : SourceFields.ofShape fields = .ok source)
    (conditionsRead : List.Forall₂ (fun item condition => ∃ when allow,
      item.1.scalars? = some when ∧ item.2.scalars? = some allow ∧
        Condition.ofShape source ⟨when, allow⟩ = .ok condition) items conditions)
    (built : of source target conditions = .ok rule) :
    rule.ReadFrom (named names target items) := by
  obtain ⟨shapes, isList, read⟩ : ∃ shapes : List ConditionShape,
      (Json.array (items.map namedCondition)).listOf? Json.condition? = some shapes ∧
        shapes.mapM (Condition.ofShape source) = .ok conditions := by
    simp only [Json.listOf?, mapM_eq_some_iff, mapM_eq_ok_iff]
    clear built
    induction conditionsRead with
    | nil => exact ⟨[], rfl, rfl⟩
    | cons first _ ih =>
        obtain ⟨when, allow, isWhen, isAllowance, read⟩ := first
        obtain ⟨shapes, areShapes, allRead⟩ := ih
        exact ⟨⟨when, allow⟩ :: shapes,
          by simp [condition?_namedCondition isWhen isAllowance, areShapes],
          by simp [read, allRead]⟩
  have noPair : (named names target items).rulePair? = none := rfl
  have parts : (named names target items).parts? ["source", "target", "conditions"] =
      some [names, .text target, .array (items.map namedCondition)] := rfl
  refine ⟨.parts fields target shapes, ?_, bind_eq_ok_iff.mpr
    ⟨source, sourceRead, bind_eq_ok_iff.mpr ⟨conditions, read, built⟩⟩⟩
  simp only [Json.combination?, noPair, Json.ruleParts?, parts, isSource, isList]
  rfl

end CombinationRule

theorem Combinations.read_array {rules : List CombinationRule} {items : List Json}
    (readFrom : List.Forall₂ CombinationRule.ReadFrom rules items) :
    read (.array items) = .ok ⟨rules⟩ := by
  have listed (index start : Nat) : ∃ shapes,
      shapesFrom Json.combination? index items = .ok shapes ∧
        ofShapes start shapes = .ok rules := by
    induction readFrom generalizing index start with
    | nil => exact ⟨[], rfl, rfl⟩
    | cons first _ ih =>
        obtain ⟨shape, isRule, built⟩ := first
        obtain ⟨shapes, areRules, allBuilt⟩ := ih (index + 1) (start + 1)
        refine ⟨shape :: shapes, ?_, ?_⟩
        · simp only [shapesFrom, isRule, areRules, Except.map]
        · simp only [ofShapes, built, allBuilt, Except.map]
  obtain ⟨shapes, areRules, built⟩ := listed 0 0
  refine bind_eq_ok_iff.mpr ⟨shapes, ?_, ?_⟩
  · simp only [readCombinations, Json.array?, areRules, mapError_ok]
  · rw [built]
    rfl

/-! Rules on tuples of fields. -/

/-- A rule on a tuple of fields. Each condition is a tuple of texts with the values that the target
may have under it, as the configuration lists them. -/
structure RuleText where
  fields : List String
  target : String
  conditions : List (List String × Json)

namespace RuleText

/-- Nothing in the rule needs quotes, and each condition has a tuple of its own. -/
structure IsPlain (rule : RuleText) : Prop where
  nonempty : rule.fields ≠ []
  named : ∀ field ∈ rule.fields, field ≠ ""
  bareFields : ∀ field ∈ rule.fields, IsBare field
  target : isBlankText rule.target = false
  arity : ∀ condition ∈ rule.conditions, condition.1.length = rule.fields.length
  bareTexts : ∀ condition ∈ rule.conditions, ∀ text ∈ condition.1, IsBare text
  distinct : (rule.conditions.map (·.1)).Nodup
  allowed : ∀ condition ∈ rule.conditions, condition.2.scalars?.isSome = true

def keyed (condition : List String × Json) : String × Json :=
  (tupleText condition.1, condition.2)

def pairForm (rule : RuleText) : Json :=
  CombinationRule.paired (tupleText rule.fields) rule.target
    (NameMap.ofEntries (rule.conditions.map keyed))

def namedForm (rule : RuleText) : Json :=
  CombinationRule.named (.texts rule.fields) rule.target
    (rule.conditions.map fun condition => (.texts condition.1, condition.2))

inductive Writes (rule : RuleText) : Json → Prop
  | pair : Writes rule rule.pairForm
  | named : Writes rule rule.namedForm

def allowance (json : Json) : ScalarList :=
  json.scalars?.getD (.many [])

/-- The word for a missing value stands for one among the texts as among the allowed values. -/
def condition (entry : List String × Json) : Condition :=
  ⟨entry.1.map fun text => .ofScalar (some (.text text)),
    (allowance entry.2).toList.map .ofScalar⟩

def meaning (rule : RuleText) : CombinationRule :=
  ⟨.composite rule.fields, rule.target, rule.conditions.map condition⟩

theorem scalars?_texts (texts : List String) :
    (Json.texts texts).scalars? = some (.many (texts.map fun text => some (.text text))) := by
  have read : (texts.map Json.text).mapM Json.scalar? =
      some (texts.map fun text => some (Scalar.text text)) := by
    rw [mapM_eq_some_iff, List.map_map, List.map_map]
    rfl
  rw [Json.texts, Json.scalars?, Json.oneOrMany?, read, Option.map_some]

theorem texts?_texts (texts : List String) : (Json.texts texts).texts? = some (.many texts) := by
  have read : (texts.map Json.text).mapM Json.text? = some texts := by
    rw [mapM_eq_some_iff, List.map_map]
    rfl
  rw [Json.texts, Json.texts?, Json.oneOrMany?, read, Option.map_some]

namespace IsPlain

variable {rule : RuleText}

theorem tuple_ne_nil (plain : rule.IsPlain) {entry : List String × Json}
    (member : entry ∈ rule.conditions) : entry.1 ≠ [] := by
  intro empty
  have arity := plain.arity entry member
  rw [empty] at arity
  exact plain.nonempty (List.eq_nil_of_length_eq_zero arity.symm)

theorem of_eq_ok (plain : rule.IsPlain) (conditions : List Condition) :
    CombinationRule.of (.composite rule.fields) rule.target conditions =
      .ok ⟨.composite rule.fields, rule.target, conditions⟩ := by
  have noBlank : rule.fields.any isBlankText = false := by
    rw [List.any_eq_false]
    intro field member
    have notLed := (plain.bareFields field member).notLed
    cases shape : field.toList with
    | nil => exact absurd (String.toList_eq_nil_iff.mp shape) (plain.named field member)
    | cons c rest =>
        rw [shape] at notLed
        simp [isBlankText, shape, notLed c rfl]
  simp [CombinationRule.of, plain.target, SourceFields.names, noBlank]

theorem condition_of (plain : rule.IsPlain) {entry : List String × Json}
    (member : entry ∈ rule.conditions) (key : String) {allow : ScalarList}
    (isAllowance : entry.2.scalars? = some allow) :
    Condition.of (.composite rule.fields) key
        (entry.1.map fun text => .ofScalar (some (.text text))) allow = .ok (condition entry) := by
  have arity : (entry.1.map fun text => Matcher.ofScalar (some (.text text))).length =
      (SourceFields.composite rule.fields).arity := by
    rw [List.length_map]
    exact plain.arity entry member
  rw [Condition.of, if_neg (not_not.mpr arity), condition, allowance, isAllowance,
    Option.getD_some]

theorem condition_ofEntry (plain : rule.IsPlain) {entry : List String × Json}
    (member : entry ∈ rule.conditions) :
    ∃ allow, entry.2.scalars? = some allow ∧
      Condition.ofEntry (.composite rule.fields) (tupleText entry.1, allow) =
        .ok (condition entry) := by
  obtain ⟨allow, isAllowance⟩ := Option.isSome_iff_exists.mp (plain.allowed entry member)
  have parts := tupleParts?_tupleText (plain.tuple_ne_nil member) (plain.bareTexts entry member)
  have matchers : Condition.keyMatchers (.composite rule.fields) (tupleText entry.1) =
      .ok (entry.1.map fun text => .ofScalar (some (.text text))) := by
    simp only [Condition.keyMatchers, parts]
  exact ⟨allow, isAllowance,
    bind_eq_ok_iff.mpr ⟨_, matchers, plain.condition_of member _ isAllowance⟩⟩

theorem condition_ofShape (plain : rule.IsPlain) {entry : List String × Json}
    (member : entry ∈ rule.conditions) :
    ∃ when allow, (Json.texts entry.1).scalars? = some when ∧ entry.2.scalars? = some allow ∧
      Condition.ofShape (.composite rule.fields) ⟨when, allow⟩ = .ok (condition entry) := by
  obtain ⟨allow, isAllowance⟩ := Option.isSome_iff_exists.mp (plain.allowed entry member)
  refine ⟨_, allow, scalars?_texts entry.1, isAllowance, ?_⟩
  rw [Condition.ofShape, OneOrMany.toList, List.map_map]
  exact plain.condition_of member _ isAllowance

theorem exists_perm_keyed (plain : rule.IsPlain) :
    ∃ entries : List (List String × Json), entries.Perm rule.conditions ∧
      NameMap.ofEntries (rule.conditions.map keyed) = entries.map keyed := by
  have distinct : ((rule.conditions.map keyed).map (·.1)).Nodup := by
    have keys : (rule.conditions.map keyed).map (·.1) =
        (rule.conditions.map (·.1)).map tupleText := by
      rw [List.map_map, List.map_map]
      rfl
    rw [keys]
    refine plain.distinct.map_on ?_
    intro parts left others right same
    obtain ⟨entry, member, rfl⟩ := List.mem_map.mp left
    obtain ⟨other, otherMember, rfl⟩ := List.mem_map.mp right
    exact tupleText_injective (plain.tuple_ne_nil member) (plain.tuple_ne_nil otherMember)
      (plain.bareTexts entry member) (plain.bareTexts other otherMember) same
  have related : List.Forall₂ (fun written entry => written = keyed entry)
      (rule.conditions.map keyed) rule.conditions := by
    rw [List.forall₂_map_left_iff]
    exact List.forall₂_same.mpr fun _ _ => rfl
  obtain ⟨entries, written, perm⟩ :=
    List.perm_comp_forall₂ (NameMap.perm_ofEntries distinct) related
  refine ⟨entries, perm, ?_⟩
  rwa [← List.forall₂_map_right_iff (R := Eq), List.forall₂_eq_eq_eq] at written

theorem readFrom_pairForm (plain : rule.IsPlain) :
    ∃ read : CombinationRule, read.ReadFrom rule.pairForm ∧ read.Reorders rule.meaning := by
  obtain ⟨entries, perm, sorted⟩ := plain.exists_perm_keyed
  have source : SourceFields.ofText? (tupleText rule.fields) = some (.composite rule.fields) := by
    have parts := tupleParts?_tupleText plain.nonempty plain.bareFields
    have named : rule.fields.any String.isEmpty = false := by
      rw [List.any_eq_false]
      exact fun field member => by simpa using plain.named field member
    simp [SourceFields.ofText?, parts, named]
  refine ⟨⟨.composite rule.fields, rule.target, entries.map condition⟩, ?_,
    rfl, rfl, perm.map condition⟩
  rw [pairForm, sorted]
  refine CombinationRule.readFrom_paired source ?_ (plain.of_eq_ok _)
  rw [List.forall₂_map_left_iff, List.forall₂_map_right_iff]
  exact List.forall₂_same.mpr fun entry member =>
    plain.condition_ofEntry (perm.mem_iff.mp member)

theorem readFrom_namedForm (plain : rule.IsPlain) : rule.meaning.ReadFrom rule.namedForm := by
  have source : SourceFields.ofShape (.many rule.fields) = .ok (.composite rule.fields) := by
    simp [SourceFields.ofShape, plain.nonempty]
  refine CombinationRule.readFrom_named (texts?_texts _) source ?_ (plain.of_eq_ok _)
  rw [List.forall₂_map_left_iff, List.forall₂_map_right_iff]
  exact List.forall₂_same.mpr fun entry member => plain.condition_ofShape member

end IsPlain

theorem Writes.readFrom {rule : RuleText} {json : Json} (writes : rule.Writes json)
    (plain : rule.IsPlain) :
    ∃ read : CombinationRule, read.ReadFrom json ∧ read.Reorders rule.meaning := by
  cases writes with
  | pair => exact plain.readFrom_pairForm
  | named => exact ⟨rule.meaning, plain.readFrom_namedForm, rfl, rfl, .refl _⟩

end RuleText

/-! Lists of rules. -/

namespace Combinations

theorem read_written {rules : List RuleText} (plain : ∀ rule ∈ rules, rule.IsPlain)
    {items : List Json} (written : List.Forall₂ RuleText.Writes rules items) :
    ∃ combinations, read (.array items) = .ok combinations ∧
      List.Forall₂ CombinationRule.Reorders combinations.rules (rules.map RuleText.meaning) := by
  obtain ⟨read, readFrom, reorder⟩ : ∃ read : List CombinationRule,
      List.Forall₂ CombinationRule.ReadFrom read items ∧
        List.Forall₂ CombinationRule.Reorders read (rules.map RuleText.meaning) := by
    induction written with
    | nil => exact ⟨[], .nil, .nil⟩
    | cons writes _ ih =>
        obtain ⟨firstPlain, morePlain⟩ := List.forall_mem_cons.mp plain
        obtain ⟨rule, readFrom, reorders⟩ := writes.readFrom firstPlain
        obtain ⟨read, allReadFrom, reorder⟩ := ih morePlain
        exact ⟨rule :: read, .cons readFrom allReadFrom, .cons reorders reorder⟩
  exact ⟨⟨read⟩, read_array readFrom, reorder⟩

variable {table : Table}

theorem fields_eq_of_reorders {combinations other : Combinations}
    (reorder : List.Forall₂ CombinationRule.Reorders combinations.rules other.rules) :
    combinations.fields = other.fields := by
  have same : combinations.rules.map CombinationRule.fieldList =
      other.rules.map CombinationRule.fieldList := by
    rw [← List.forall₂_eq_eq_eq, List.forall₂_map_left_iff, List.forall₂_map_right_iff]
    exact reorder.imp fun rule changed reordered => reordered.fieldList_eq
  rw [fields, fields, List.flatMap_def, List.flatMap_def, same]

theorem missingField?_eq_none_iff {fields : List String} :
    table.missingField? fields = none ↔ ∀ field ∈ fields, table.hasColumn field = true := by
  simp [Table.missingField?]

theorem apply_eq_of_reorders (wellFormed : table.WellFormed) {combinations other : Combinations}
    (proper : combinations.Proper)
    (reorder : List.Forall₂ CombinationRule.Reorders combinations.rules other.rules) :
    (Constraint.combinations other).apply table =
      (Constraint.combinations combinations).apply table := by
  cases missing : table.missingField? combinations.fields with
  | some field =>
      have otherMissing : table.missingField? other.fields = some field := by
        rw [← fields_eq_of_reorders reorder, missing]
      simp only [Constraint.apply, Constraint.validate, Constraint.fields, Table.checkFields, missing,
        otherMissing]
      rfl
  | none =>
      have reorders : combinations.Reorders other := ⟨combinations.rules, .refl _, reorder⟩
      refine reorders.apply_eq wellFormed proper fun field member => ?_
      exact Table.hasColumn_iff.mp (missingField?_eq_none_iff.mp missing field member)

theorem proper_meaning {rules : List RuleText} (plain : ∀ rule ∈ rules, rule.IsPlain) :
    Proper ⟨rules.map RuleText.meaning⟩ := by
  intro rule member condition inside
  obtain ⟨text, listed, rfl⟩ := List.mem_map.mp member
  obtain ⟨entry, entryListed, rfl⟩ := List.mem_map.mp inside
  rw [RuleText.condition, List.length_map]
  exact (plain text listed).arity entry entryListed

/-- In whichever form each rule of a list is written, the list is read, and it narrows a table to
the same rows. -/
theorem forms_agree {rules : List RuleText} (plain : ∀ rule ∈ rules, rule.IsPlain)
    {items others : List Json} (written : List.Forall₂ RuleText.Writes rules items)
    (otherWritten : List.Forall₂ RuleText.Writes rules others) :
    ∃ combinations other,
      read (.array items) = .ok combinations ∧ read (.array others) = .ok other ∧
      ∀ table : Table, table.WellFormed →
        (Constraint.combinations combinations).apply table =
          (Constraint.combinations other).apply table ∧
        ((∀ rule ∈ rules, ∀ field ∈ rule.fields ++ [rule.target], table.hasColumn field = true) →
          ∃ narrowed, (Constraint.combinations combinations).apply table = .done narrowed ∧
            ∀ row, row ∈ narrowed.rows ↔
              row ∈ table.rows ∧ ∀ rule ∈ rules, rule.meaning.Admits (table.onRow row)) := by
  obtain ⟨combinations, accepted, reorder⟩ := read_written plain written
  obtain ⟨other, otherAccepted, otherReorder⟩ := read_written plain otherWritten
  refine ⟨combinations, other, accepted, otherAccepted, fun table wellFormed => ?_⟩
  let meant : Combinations := ⟨rules.map RuleText.meaning⟩
  have meaning : (Constraint.combinations meant).apply table =
      (Constraint.combinations combinations).apply table :=
    apply_eq_of_reorders wellFormed (proper_of_read accepted) reorder
  have otherMeaning : (Constraint.combinations meant).apply table =
      (Constraint.combinations other).apply table :=
    apply_eq_of_reorders wellFormed (proper_of_read otherAccepted) otherReorder
  refine ⟨meaning.symm.trans otherMeaning, fun hasFields => ?_⟩
  have known : ∀ rule ∈ rules.map RuleText.meaning, ∀ field ∈ rule.fieldList,
      field ∈ table.schema.map (·.1) := by
    intro rule member field inside
    obtain ⟨text, listed, rfl⟩ := List.mem_map.mp member
    exact Table.hasColumn_iff.mp (hasFields text listed field inside)
  refine ⟨_, meaning.symm.trans (apply_eq_done wellFormed (forall_fields_iff.mpr known)), ?_⟩
  intro row
  rw [Table.rows_filter, keepMarked_map_marks, List.mem_filter]
  refine and_congr_right fun member => ?_
  rw [keeps_iff wellFormed (proper_meaning plain) known member, Admits, List.forall_mem_map]

theorem forms_agree_composite :
    let rule : RuleText :=
      ⟨["team", "floor"], "room", [(["red (new)", "pd.NA"], .text "north"),
        (["", "2"], .array [.text "south", .text "pd.NA"])]⟩
    let table : Table :=
      ⟨[⟨"team", .text, [.text "red (new)", .text "red (new)", .text "", .text ""]⟩,
        ⟨"floor", .int, [.null, .int 1, .int 2, .int 2]⟩,
        ⟨"room", .text, [.text "south", .text "south", .null, .text "north"]⟩], 4⟩
    let narrowed : Table :=
      ⟨[⟨"team", .text, [.text "red (new)", .text ""]⟩, ⟨"floor", .int, [.int 1, .int 2]⟩,
        ⟨"room", .text, [.text "south", .null]⟩], 2⟩
    rule.IsPlain ∧ table.WellFormed ∧ ∃ combinations other,
      read (.array [rule.pairForm]) = .ok combinations ∧
      read (.array [rule.namedForm]) = .ok other ∧
      (Constraint.combinations combinations).apply table = .done narrowed ∧
      (Constraint.combinations other).apply table = .done narrowed := by
  intro rule table narrowed
  have plain : rule.IsPlain := by
    constructor <;> decide
  have wellFormed : table.WellFormed := by decide
  have allPlain : ∀ text ∈ [rule], text.IsPlain := by simpa using plain
  obtain ⟨combinations, other, accepted, otherAccepted, agree⟩ :=
    forms_agree allPlain (.cons .pair .nil) (.cons .named .nil)
  have accepts : read (.array [rule.namedForm]) = .ok ⟨[rule.meaning]⟩ := by
    simp only [rule]
    rfl
  obtain rfl : ⟨[rule.meaning]⟩ = other := Except.ok.inj (accepts.symm.trans otherAccepted)
  have given : (Constraint.combinations ⟨[rule.meaning]⟩).apply table = .done narrowed := by
    simp only [rule, table, narrowed]
    rfl
  exact ⟨plain, wellFormed, combinations, _, accepted, otherAccepted,
    (agree table wellFormed).1.trans given, given⟩

end Combinations

end TableSieve
