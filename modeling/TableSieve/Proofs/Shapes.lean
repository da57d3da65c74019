import TableSieve.CommandLine.Plan
import TableSieve.Proofs.Describing

/-!
The schema of configurations against the readers of the constraint kinds. Both take the same values
but for two: the schema lets a kind be null, as if it were absent, and the readers also take a rule
or a condition that is written as the list of its parts.
-/

namespace TableSieve

namespace Json

def isObject (json : Json) : Bool :=
  json.object?.isSome

/-- The rule has named parts or is a pair, and all of its conditions have named parts. -/
def namesParts : Json → Bool
  | .array items => items.length = 2
  | .object members =>
    match NameMap.get? members "conditions" with
    | some (.array conditions) => conditions.all isObject
    | _ => true
  | _ => true

end Json

namespace ConstraintKind

def reads : ConstraintKind → Json → Bool
  | .nullGroups, json => (readNullRules json).isOk
  | .formulas, json => (readFormulaTexts json).isOk
  | .combinations, json => (readCombinations json).isOk

def namesParts : ConstraintKind → Json → Bool
  | .combinations, .array rules => rules.all Json.namesParts
  | _, _ => true

end ConstraintKind

/-! Readers. -/

namespace Json

variable {α : Type} {shape : Json → Option α}

theorem isSome_oneOrMany?_iff (noArray : ∀ items, shape (.array items) = none) (json : Json) :
    (json.oneOrMany? shape).isSome = true ↔
      (shape json).isSome = true ∨
        ∃ items, json = .array items ∧ ∀ item ∈ items, (shape item).isSome = true := by
  cases json with
  | array items => simp [oneOrMany?, noArray, isSome_mapM_iff]
  | null | bool | int | float | text | object => simp [oneOrMany?]

theorem isSome_mapOf?_iff (json : Json) :
    (json.mapOf? shape).isSome = true ↔
      ∃ members, json = .object members ∧ ∀ entry ∈ members, (shape entry.2).isSome = true := by
  cases json with
  | object members => simp [mapOf?, isSome_mapM_iff]
  | null | bool | int | float | text | array => simp [mapOf?]

theorem isSome_listOf?_iff (json : Json) :
    (json.listOf? shape).isSome = true ↔
      ∃ items, json = .array items ∧ ∀ item ∈ items, (shape item).isSome = true := by
  cases json with
  | array items => simp [listOf?, isSome_mapM_iff]
  | null | bool | int | float | text | object => simp [listOf?]

def isScalar : Json → Bool
  | .array _ | .object _ => false
  | _ => true

theorem isSome_scalar? (json : Json) : json.scalar?.isSome = json.isScalar := by
  cases json with
  | int number => cases small : Number.int64? number <;> simp [scalar?, small, isScalar]
  | null | bool | float | text | array | object => rfl

theorem isSome_condition?_object_iff (members : List (String × Json)) :
    (object members).condition?.isSome = true ↔
      (∃ value, NameMap.get? members "when" = some value ∧ value.scalars?.isSome = true) ∧
      ∃ value, NameMap.get? members "allow" = some value ∧ value.scalars?.isSome = true := by
  cases condition : NameMap.get? members "when" with
  | none => simp [condition?, parts?, condition]
  | some when =>
    cases allowance : NameMap.get? members "allow" with
    | none => simp [condition?, parts?, condition, allowance]
    | some allow =>
      cases listed : when.scalars? <;> cases allowed : allow.scalars? <;>
        simp [condition?, parts?, condition, allowance, listed, allowed]

theorem isSome_ruleParts?_object_iff (members : List (String × Json)) :
    (object members).ruleParts?.isSome = true ↔
      (∃ value, NameMap.get? members "source" = some value ∧ value.texts?.isSome = true) ∧
      (∃ value, NameMap.get? members "target" = some value ∧ value.text?.isSome = true) ∧
      ∃ value, NameMap.get? members "conditions" = some value ∧
        (value.listOf? condition?).isSome = true := by
  cases origin : NameMap.get? members "source" with
  | none => simp [ruleParts?, parts?, origin]
  | some source =>
    cases goal : NameMap.get? members "target" with
    | none => simp [ruleParts?, parts?, origin, goal]
    | some target =>
      cases demands : NameMap.get? members "conditions" with
      | none => simp [ruleParts?, parts?, origin, goal, demands]
      | some conditions =>
        cases readSource : source.texts? <;> cases readTarget : target.text? <;>
          cases readConditions : conditions.listOf? condition? <;>
            simp [ruleParts?, parts?, origin, goal, demands, readSource, readTarget, readConditions]

theorem isSome_rulePair?_iff (json : Json) :
    json.rulePair?.isSome = true ↔
      ∃ fields conditions, json = .array [fields, conditions] ∧
        (fields.mapOf? text?).isSome = true ∧ (conditions.mapOf? scalars?).isSome = true := by
  unfold rulePair?
  split
  · rename_i fields conditions
    have bothRead : (fields.mapOf? text?).isSome = true ∧
        (conditions.mapOf? scalars?).isSome = true ↔
        ∃ left right, Json.array [fields, conditions] = .array [left, right] ∧
          (left.mapOf? text?).isSome = true ∧ (right.mapOf? scalars?).isSome = true :=
      ⟨fun read => ⟨fields, conditions, rfl, read⟩, by rintro ⟨_, _, ⟨⟩, read⟩; exact read⟩
    rw [← bothRead]
    cases fields.mapOf? text? <;> cases conditions.mapOf? scalars? <;> simp
  · rename_i noPair
    simp only [Option.isSome_none, Bool.false_eq_true, false_iff]
    rintro ⟨fields, conditions, isPair, _⟩
    exact noPair fields conditions isPair

/-- A rule with named parts is no pair, and a rule that is the list of its parts is none either. -/
theorem isSome_combination?_namesParts_iff (json : Json) :
    json.namesParts = true ∧ json.combination?.isSome = true ↔
      json.rulePair?.isSome = true ∨
        (json.isObject = true ∧ json.namesParts = true ∧ json.ruleParts?.isSome = true) := by
  rw [combination?, Option.isSome_or, Bool.or_eq_true]
  cases json with
  | array items =>
      constructor
      · rintro ⟨named, read | read⟩
        · exact .inl read
        · simp_all [namesParts, ruleParts?, parts?]
      · rintro (read | ⟨isObject, _⟩)
        · obtain ⟨_, _, isPair, _⟩ := (isSome_rulePair?_iff _).mp read
          simp_all [namesParts]
        · simp [Json.isObject, Json.object?] at isObject
  | object members => simp [rulePair?, Json.isObject, Json.object?]
  | null | bool | int | float | text => simp [rulePair?, ruleParts?, parts?]

end Json

theorem isOk_shapesFrom_iff {α : Type} {shape : Json → Option α} {index : Nat}
    {items : List Json} :
    (shapesFrom shape index items).isOk = true ↔
      ∀ item ∈ items, (shape item).isSome = true := by
  induction items generalizing index with
  | nil => simp [shapesFrom, Except.isOk, Except.toBool]
  | cons item items ih =>
      rw [List.forall_mem_cons, ← @ih (index + 1)]
      cases found : shape item with
      | none => simp [shapesFrom, found, Except.isOk, Except.toBool]
      | some value =>
          cases rest : shapesFrom shape (index + 1) items <;>
            simp [shapesFrom, found, rest, Except.map, Except.isOk, Except.toBool]

theorem isOk_mapError {α ε δ : Type} (result : Except ε α) (describe : ε → δ) :
    (result.mapError describe).isOk = result.isOk := by
  cases result <;> rfl

/-! Schemas. -/

namespace Schema

theorem string_describes : Schema.string.Describes fun json => json.text?.isSome = true := by
  refine (describes_scalar .string none).congr fun json => ?_
  cases json <;> simp [Json.hasType, Json.text?]

theorem texts_describes : (Schema.anyOf [.string, .list false .string]).Describes
    fun json => json.texts?.isSome = true := by
  refine (string_describes.either (string_describes.list false)).congr fun json => ?_
  rw [Json.texts?, Json.isSome_oneOrMany?_iff (by simp [Json.text?])]
  simp

theorem fieldList_describes : fieldList.Describes fun json => json.texts?.isSome = true :=
  texts_describes.named _ _

theorem sourceFields_describes : sourceFields.Describes fun json => json.texts?.isSome = true :=
  texts_describes.named _ _

theorem nullRule_describes : nullRule.Describes fun json => json.nullRule?.isSome = true := by
  refine ((string_describes.either (fieldList_describes.map false)).named _ _).congr fun json => ?_
  cases json with
  | text name => simp [Json.text?, Json.nullRule?]
  | object members =>
      rw [Json.nullRule?, Option.isSome_map, Json.isSome_mapOf?_iff]
      simp [Json.text?]
      simp
  | null | bool | int | float | array => simp [Json.text?, Json.nullRule?, Json.mapOf?]

theorem scalarValue_describes :
    scalarValue.Describes fun json => json ≠ .null ∧ json.scalar?.isSome = true := by
  intro path json
  rw [scalarValue, violations, violations_anyOf_eq_nil_iff]
  simp only [Schema.string, List.mem_cons, List.not_mem_nil, or_false, exists_eq_or_imp,
    exists_eq_left, describes_scalar _ _ _ _, Json.isSome_scalar?]
  cases json <;> simp [Json.hasType, Json.isScalar]

theorem scalarOrNull_describes :
    scalarOrNull.Describes fun json => json.scalar?.isSome = true := by
  refine (scalarValue_describes.either (describes_scalar .null none)).congr fun json => ?_
  rw [Json.isSome_scalar?]
  cases json <;> simp [Json.hasType, Json.isScalar]

theorem scalarList_describes : scalarList.Describes fun json => json.scalars?.isSome = true := by
  refine (((scalarOrNull_describes.list false).either scalarOrNull_describes).named _ _).congr
    fun json => ?_
  rw [Json.scalars?, Json.isSome_oneOrMany?_iff (by simp [Json.scalar?]), or_comm]
  simp

theorem violations_complete_record_eq_nil_iff {members : List (String × Schema)} {path : JsonPath}
    {json : Json} :
    (Schema.record true members).violations path json = [] ↔
      ∃ present, json = .object present ∧ ∀ member ∈ members,
        ∃ value, NameMap.get? present member.1 = some value ∧
          member.2.violations (path ++ [member.1]) value = [] := by
  rw [violations_record_eq_nil_iff]
  refine exists_congr fun present => and_congr_right fun _ => ?_
  refine forall₂_congr fun member listed => ?_
  rw [MemberFits]
  cases NameMap.get? present member.1 <;> simp

theorem condition_describes :
    condition.Describes fun json => json.isObject = true ∧ json.condition?.isSome = true := by
  intro path json
  rw [condition, violations, violations_complete_record_eq_nil_iff]
  cases json with
  | object members =>
      simp only [Json.object.injEq, exists_eq_left', List.forall_mem_cons, List.not_mem_nil,
        false_implies, implies_true, and_true, scalarList_describes _ _,
        Json.isSome_condition?_object_iff]
      constructor
      · rintro ⟨allowed, listed⟩
        exact ⟨rfl, listed, allowed⟩
      · rintro ⟨_, listed, allowed⟩
        exact ⟨allowed, listed⟩
  | null | bool | int | float | text | array => simp [Json.isObject, Json.object?]

theorem conditions_describe :
    (Schema.list false condition).Describes fun json =>
      ∃ items, json = .array items ∧ items.all Json.isObject = true ∧
        (json.listOf? Json.condition?).isSome = true := by
  refine (condition_describes.list false).congr fun json => ?_
  cases json with
  | array items => simp [Json.isSome_listOf?_iff, forall_and]
  | null | bool | int | float | text | object => simp

theorem combinationParts_describes :
    combinationParts.Describes fun json =>
      json.isObject = true ∧ json.namesParts = true ∧ json.ruleParts?.isSome = true := by
  intro path json
  rw [combinationParts, violations, violations_complete_record_eq_nil_iff]
  cases json with
  | object members =>
      simp only [Json.object.injEq, exists_eq_left', List.forall_mem_cons, List.not_mem_nil,
        false_implies, implies_true, and_true, sourceFields_describes _ _, string_describes _ _,
        conditions_describe _ _, Json.isSome_ruleParts?_object_iff]
      constructor
      · rintro ⟨⟨_, demands, items, rfl, named, read⟩, source, target⟩
        exact ⟨rfl, by simpa [Json.namesParts, demands] using named, source, target,
          _, demands, read⟩
      · rintro ⟨_, named, source, target, conditions, demands, read⟩
        obtain ⟨items, rfl, _⟩ := (Json.isSome_listOf?_iff _).mp read
        exact ⟨⟨_, demands, items, rfl, by simpa [Json.namesParts, demands] using named, read⟩,
          source, target⟩
  | null | bool | int | float | text | array => simp [Json.isObject, Json.object?]

theorem combination_describes :
    combination.Describes fun json =>
      json.namesParts = true ∧ json.combination?.isSome = true := by
  refine (((((string_describes.map false).pair (scalarList_describes.map false)).either
    combinationParts_describes)).named _ _).congr fun json => ?_
  simp only [Json.isSome_combination?_namesParts_iff, Json.isSome_rulePair?_iff,
    Json.isSome_mapOf?_iff, Bool.false_eq_true, false_and, false_or]

end Schema

end TableSieve
