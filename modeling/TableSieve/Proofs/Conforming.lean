import Mathlib
import TableSieve.Proofs.Resampling
import TableSieve.Proofs.Shapes

/-!
Configurations that the schema accepts and those whose kinds can be read. Every configuration that
is accepted is readable but for kinds that are null, and a readable one is refused only for a rule
or a condition that does not name its parts.
-/

namespace TableSieve

open TableSieve.CommandLine

namespace ConstraintKind

def Accepts (kind : ConstraintKind) (json : Json) : Prop :=
  json = .null ∨ kind.reads json = true ∧ kind.namesParts json = true

theorem reads_nullGroups_iff (json : Json) :
    nullGroups.reads json = true ↔ (json.mapOf? Json.nullRule?).isSome = true := by
  rw [reads, readNullRules.eq_def]
  cases json with
  | object members =>
      cases (Json.object members).mapOf? Json.nullRule? <;> simp [Except.isOk, Except.toBool]
  | null | bool | int | float | text | array =>
      simp [Json.mapOf?, Except.isOk, Except.toBool]

theorem reads_formulas_iff (json : Json) :
    formulas.reads json = true ↔
      ∃ items, json = .array items ∧ ∀ item ∈ items, item.text?.isSome = true := by
  rw [reads, readFormulaTexts]
  cases json with
  | array items => simp [Json.array?, isOk_mapError, isOk_shapesFrom_iff]
  | null | bool | int | float | text | object =>
      simp [Json.array?, Except.isOk, Except.toBool]

theorem reads_combinations_iff (json : Json) :
    combinations.reads json = true ↔
      ∃ items, json = .array items ∧ ∀ item ∈ items, item.combination?.isSome = true := by
  rw [reads, readCombinations]
  cases json with
  | array items => simp [Json.array?, isOk_mapError, isOk_shapesFrom_iff]
  | null | bool | int | float | text | object =>
      simp [Json.array?, Except.isOk, Except.toBool]

theorem not_reads_null (kind : ConstraintKind) : kind.reads .null = false := by
  cases kind <;> rfl

theorem reads_of_build {kind : ConstraintKind} {json : Json} {constraint : Constraint}
    (built : kind.build json = .ok constraint) : kind.reads json = true := by
  cases kind with
  | nullGroups =>
      rw [build, NullGroups.read] at built
      cases read : readNullRules json with
      | ok shape => simp [reads, read, Except.isOk, Except.toBool]
      | error fault => simp [read, mapError_error, bind, Except.bind, Except.map] at built
  | formulas =>
      rw [build, FormulaList.read] at built
      cases read : readFormulaTexts json with
      | ok texts => simp [reads, read, Except.isOk, Except.toBool]
      | error fault => simp [read, mapError_error, bind, Except.bind, Except.map] at built
  | combinations =>
      rw [build, Combinations.read] at built
      cases read : readCombinations json with
      | ok shapes => simp [reads, read, Except.isOk, Except.toBool]
      | error fault => simp [read, mapError_error, bind, Except.bind, Except.map] at built

end ConstraintKind

namespace Schema

theorem nullRules_describes :
    (Schema.map true nullRule).Describes ConstraintKind.nullGroups.Accepts := by
  refine (nullRule_describes.map true).congr fun json => ?_
  simp [ConstraintKind.Accepts, ConstraintKind.reads_nullGroups_iff, ConstraintKind.namesParts,
    Json.isSome_mapOf?_iff]

theorem formulaTexts_describes :
    (Schema.list true .string).Describes ConstraintKind.formulas.Accepts := by
  refine (string_describes.list true).congr fun json => ?_
  simp [ConstraintKind.Accepts, ConstraintKind.reads_formulas_iff, ConstraintKind.namesParts]

theorem combinations_describes :
    (Schema.list true combination).Describes ConstraintKind.combinations.Accepts := by
  refine (combination_describes.list true).congr fun json => ?_
  rw [ConstraintKind.Accepts, ConstraintKind.reads_combinations_iff]
  cases json with
  | array rules => simp [ConstraintKind.namesParts, forall_and, and_comm]
  | null | bool | int | float | text | object => simp

theorem memberFits_optional_iff {present : NameMap Json} {path : JsonPath} {name : String}
    {schema : Schema} {accepts : Json → Prop} (describes : schema.Describes accepts) :
    MemberFits false present path (name, schema) ↔
      ∀ value, present.get? name = some value → accepts value := by
  rw [MemberFits]
  cases found : present.get? name with
  | some value => simp [describes _ _]
  | none => simp

theorem violations_config_eq_nil_iff {path : JsonPath} {members : NameMap Json} :
    Schema.config.violations path (.object members) = [] ↔
      ∀ kind : ConstraintKind, ∀ value, members.get? kind.name = some value →
        kind.Accepts value := by
  rw [config, violations, violations_record_eq_nil_iff]
  simp only [Json.object.injEq, exists_eq_left', List.forall_mem_cons, List.not_mem_nil,
    false_implies, implies_true, and_true,
    memberFits_optional_iff (nullRules_describes.described _),
    memberFits_optional_iff (formulaTexts_describes.described _),
    memberFits_optional_iff (combinations_describes.described _)]
  constructor
  · rintro ⟨combinationsFit, formulasFit, nullGroupsFit⟩ kind
    cases kind with
    | nullGroups => exact nullGroupsFit
    | formulas => exact formulasFit
    | combinations => exact combinationsFit
  · intro fits
    exact ⟨fits .combinations, fits .formulas, fits .nullGroups⟩

end Schema

namespace Registry

theorem exists_built_of_buildAll {config : Config} {builders : List (String × Builder)}
    {constraints : List Constraint} (built : buildAll config builders = .ok constraints)
    {name : String} {builder : Builder} (listed : (name, builder) ∈ builders) {value : Json}
    (configured : config.get? name = some value) :
    ∃ constraint, builder value = .ok constraint := by
  induction builders generalizing constraints with
  | nil => simp at listed
  | cons entry rest ih =>
      obtain ⟨other, otherBuilder⟩ := entry
      rw [buildAll] at built
      cases found : config.get? other with
      | none =>
          rw [found] at built
          rcases List.mem_cons.mp listed with here | later
          · cases here
            simp [found] at configured
          · exact ih built later
      | some otherValue =>
          rw [found] at built
          obtain ⟨first, firstBuilt, more⟩ := bind_eq_ok_iff.mp built
          rcases List.mem_cons.mp listed with here | later
          · cases here
            rw [configured] at found
            cases found
            exact ⟨first, firstBuilt⟩
          · cases others : buildAll config rest with
            | ok _ => exact ih others later
            | error _ => simp [others, Except.map] at more

theorem mem_builtIn (kind : ConstraintKind) : (kind.name, kind.build) ∈ builtIn.builders := by
  cases kind <;> simp [builtIn, ConstraintKind.all, register, registerIn, empty,
    ConstraintKind.name, nullGroupsName, formulasName, combinationsName]

end Registry

theorem Pipeline.reads_of_ofConfig {config : Config} {pipeline : Pipeline}
    (built : ofConfig config = .ok pipeline) (kind : ConstraintKind) {value : Json}
    (configured : config.get? kind.name = some value) : kind.reads value = true := by
  rw [ofConfig, Registry.build] at built
  cases constraints : Registry.buildAll config Registry.builtIn.builders with
  | error _ => simp [constraints, Except.map] at built
  | ok _ =>
      obtain ⟨constraint, ofValue⟩ :=
        Registry.exists_built_of_buildAll constraints (Registry.mem_builtIn kind) configured
      exact ConstraintKind.reads_of_build ofValue

theorem warnings_schemaLog_eq_nil_iff {config : Config} :
    (schemaLog config.json).warnings = [] ↔
      ∀ kind : ConstraintKind, ∀ value, config.get? kind.name = some value →
        kind.Accepts value := by
  rw [schemaLog, WarningLog.warnings_recordAll, WarningLog.empty, List.nil_append,
    List.map_eq_nil_iff]
  exact Schema.violations_config_eq_nil_iff

theorem loadPipeline_of_load {files : Files} {path : String} {config : Config}
    (loaded : Config.load (readText files) path = .ok config) :
    loadPipeline files path =
      match (schemaLog config.json).warnings with
      | [] => (Pipeline.ofConfig config).mapError CommandError.config
      | first :: rest => .error (.invalidConfig path (rest.length + 1) first) := by
  rw [loadPipeline, loaded]
  rfl

theorem loadPipeline_eq_ok_iff {files : Files} {path : String} {config : Config}
    {pipeline : Pipeline} (loaded : Config.load (readText files) path = .ok config)
    (built : Pipeline.ofConfig config = .ok pipeline) :
    loadPipeline files path = .ok pipeline ↔ (schemaLog config.json).warnings = [] := by
  rw [loadPipeline_of_load loaded]
  cases (schemaLog config.json).warnings with
  | nil => simp [built, mapError_ok]
  | cons first rest => simp

theorem loadPipeline_eq_error {files : Files} {path : String} {config : Config}
    (loaded : Config.load (readText files) path = .ok config)
    (warned : (schemaLog config.json).warnings ≠ []) :
    ∃ first rest, (schemaLog config.json).warnings = first :: rest ∧
      loadPipeline files path = .error (.invalidConfig path (rest.length + 1) first) := by
  obtain ⟨first, rest, same⟩ := List.exists_cons_of_ne_nil warned
  refine ⟨first, rest, same, ?_⟩
  rw [loadPipeline_of_load loaded, same]

/-- Building a pipeline reads every kind, so of what the schema asks only the names of the parts are
left to differ. A configuration that leaves some out is refused with the first of the warnings. -/
theorem schemaLog_accepts_iff_reads (config : Config) :
    ((schemaLog config.json).warnings = [] ↔
      ∀ kind : ConstraintKind, ∀ value, config.get? kind.name = some value →
        value = .null ∨ kind.reads value = true ∧ kind.namesParts value = true) ∧
    ∀ files path pipeline, Config.load (readText files) path = .ok config →
      Pipeline.ofConfig config = .ok pipeline →
      (loadPipeline files path = .ok pipeline ↔
        ∀ kind : ConstraintKind, ∀ value, config.get? kind.name = some value →
          kind.namesParts value = true) ∧
      ((∃ kind : ConstraintKind, ∃ value, config.get? kind.name = some value ∧
          kind.namesParts value = false) →
        ∃ first rest, (schemaLog config.json).warnings = first :: rest ∧
          loadPipeline files path = .error (.invalidConfig path (rest.length + 1) first)) := by
  refine ⟨warnings_schemaLog_eq_nil_iff, fun files path pipeline loaded built => ?_⟩
  have accepts : (schemaLog config.json).warnings = [] ↔
      ∀ kind : ConstraintKind, ∀ value, config.get? kind.name = some value →
        kind.namesParts value = true := by
    rw [warnings_schemaLog_eq_nil_iff]
    refine forall₃_congr fun kind value configured => ?_
    have reads : kind.reads value = true := Pipeline.reads_of_ofConfig built kind configured
    constructor
    · rintro (isNull | ⟨_, named⟩)
      · rw [isNull, ConstraintKind.not_reads_null] at reads
        cases reads
      · exact named
    · intro named
      exact .inr ⟨reads, named⟩
  refine ⟨(loadPipeline_eq_ok_iff loaded built).trans accepts, ?_⟩
  rintro ⟨kind, value, configured, unnamed⟩
  refine loadPipeline_eq_error loaded fun quiet => ?_
  rw [accepts.mp quiet kind value configured] at unnamed
  cases unnamed

def pairedRule : Config :=
  ⟨[(combinationsName, .array [.array [.object [("a", .text "b")], .object [("x", .int 1)]]])]⟩

def pairedRuleText : String :=
  "field_combinations=[[\x7ba=\"b\"\x7d,\x7bx=1\x7d]]"

def listedRule : Config :=
  ⟨[(combinationsName, .array [.array [.text "a", .text "b", .array []]])]⟩

def listedRuleText : String :=
  "field_combinations=[[\"a\",\"b\",[]]]"

def singleFile (path text : String) : Files :=
  fun other => if other = path then .ok text.toUTF8.toList else .error "missing"

theorem load_singleFile {text : String} {config : Config}
    (decoded : readText (singleFile "rules.toml" text) "rules.toml" = .ok text)
    (read : Config.readToml text = .ok config) :
    Config.load (readText (singleFile "rules.toml" text)) "rules.toml" = .ok config := by
  rw [Config.load, decoded]
  exact read

theorem load_pairedRule :
    Config.load (readText (singleFile "rules.toml" pairedRuleText)) "rules.toml" =
      .ok pairedRule :=
  load_singleFile (by cbv) (by cbv)

theorem load_listedRule :
    Config.load (readText (singleFile "rules.toml" listedRuleText)) "rules.toml" =
      .ok listedRule :=
  load_singleFile (by cbv) (by cbv)

theorem schemaLog_accepts_iff_reads_paired :
    (∃ pipeline,
      Config.load (readText (singleFile "rules.toml" pairedRuleText)) "rules.toml" =
        .ok pairedRule ∧
      Pipeline.ofConfig pairedRule = .ok pipeline ∧
      loadPipeline (singleFile "rules.toml" pairedRuleText) "rules.toml" = .ok pipeline) ∧
    ∃ pipeline issues first,
      Config.load (readText (singleFile "rules.toml" listedRuleText)) "rules.toml" =
        .ok listedRule ∧
      Pipeline.ofConfig listedRule = .ok pipeline ∧
      loadPipeline (singleFile "rules.toml" listedRuleText) "rules.toml" =
        .error (.invalidConfig "rules.toml" issues first) := by
  obtain ⟨paired, pairedBuilt⟩ : ∃ pipeline, Pipeline.ofConfig pairedRule = .ok pipeline :=
    ⟨_, rfl⟩
  obtain ⟨listed, listedBuilt⟩ : ∃ pipeline, Pipeline.ofConfig listedRule = .ok pipeline :=
    ⟨_, rfl⟩
  have pairedPart := (schemaLog_accepts_iff_reads pairedRule).2 _ _ _ load_pairedRule pairedBuilt
  have listedPart := (schemaLog_accepts_iff_reads listedRule).2 _ _ _ load_listedRule listedBuilt
  refine ⟨⟨paired, load_pairedRule, pairedBuilt, pairedPart.1.mpr ?_⟩, ?_⟩
  · intro kind value configured
    cases kind with
    | nullGroups => cases configured
    | formulas => cases configured
    | combinations =>
        cases configured
        rfl
  · obtain ⟨first, rest, _, refused⟩ := listedPart.2 ⟨.combinations, _, rfl, rfl⟩
    exact ⟨listed, rest.length + 1, first, load_listedRule, listedBuilt, refused⟩

/-- The rule can be read and built but is refused; a null kind is accepted but cannot be read. -/
theorem schemaLog_refuses_listed_rule :
    ((∀ kind : ConstraintKind, ∀ value, listedRule.get? kind.name = some value →
        kind.reads value = true) ∧
      (schemaLog listedRule.json).warnings ≠ []) ∧
    ((∃ pipeline, Pipeline.ofConfig listedRule = .ok pipeline) ∧
      ∃ first, loadPipeline (singleFile "rules.toml" listedRuleText) "rules.toml" =
        .error (.invalidConfig "rules.toml" 1 first)) ∧
    (schemaLog (.object [(nullGroupsName, .null)])).warnings = [] ∧
      ConstraintKind.nullGroups.reads .null = false := by
  have refused : (schemaLog listedRule.json).warnings.length = 1 := by rfl
  obtain ⟨first, warned⟩ := List.length_eq_one_iff.mp refused
  refine ⟨⟨?_, ?_⟩, ⟨⟨_, rfl⟩, first, ?_⟩, rfl, rfl⟩
  · intro kind value configured
    cases kind with
    | nullGroups => cases configured
    | formulas => cases configured
    | combinations =>
        cases configured
        rfl
  · rw [warned]
    exact List.cons_ne_nil _ _
  · rw [loadPipeline_of_load load_listedRule, warned]
    rfl

end TableSieve
