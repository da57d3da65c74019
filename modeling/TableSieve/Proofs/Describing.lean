import TableSieve.Config.Schema
import TableSieve.Proofs.Lists

/-!
What a schema describes: the values in which it finds no violation, wherever in a document they
stand. A schema describes by the schemas that it is made of.
-/

namespace TableSieve.Schema

def Describes (schema : Schema) (accepts : Json → Prop) : Prop :=
  ∀ path json, schema.violations path json = [] ↔ accepts json

variable {schema other : Schema} {accepts otherAccepts : Json → Prop}

theorem Describes.congr (describes : schema.Describes accepts)
    (same : ∀ json, accepts json ↔ otherAccepts json) : schema.Describes otherAccepts :=
  fun path json => (describes path json).trans (same json)

theorem describes_scalar (type : SchemaType) (format : Option String) :
    (Schema.scalar type format).Describes fun json => json.hasType type = true := by
  intro path json
  cases fits : json.hasType type <;> simp [violations, typeViolation, fits]

theorem Describes.described (describes : schema.Describes accepts) (description : String) :
    (Schema.described description schema).Describes accepts := by
  intro path json
  rw [violations]
  exact describes path json

theorem Describes.named (describes : schema.Describes accepts) (name description : String) :
    (Schema.named name description schema).Describes accepts := by
  intro path json
  rw [violations]
  exact describes path json

theorem itemViolations_eq_nil_iff (describes : schema.Describes accepts) (path : JsonPath)
    (index : Nat) (items : List Json) :
    itemViolations schema.violations path index items = [] ↔ ∀ item ∈ items, accepts item := by
  induction items generalizing index with
  | nil => simp [itemViolations]
  | cons item items ih =>
      simp only [itemViolations, List.append_eq_nil_iff, List.forall_mem_cons, ih]
      rw [describes]

theorem memberViolations_eq_nil_iff (describes : schema.Describes accepts) (path : JsonPath)
    (members : List (String × Json)) :
    memberViolations schema.violations path members = [] ↔
      ∀ entry ∈ members, accepts entry.2 := by
  simp only [memberViolations, List.flatMap_eq_nil_iff, describes _ _]

theorem nullViolations_eq_nil_iff {path : JsonPath} {type : SchemaType} {orNull : Bool} :
    nullViolations path type orNull = [] ↔ orNull = true := by
  cases orNull <;> simp [nullViolations, typeViolation]

theorem Describes.list (describes : schema.Describes accepts) (orNull : Bool) :
    (Schema.list orNull schema).Describes fun json =>
      (orNull = true ∧ json = .null) ∨
        ∃ items, json = .array items ∧ ∀ item ∈ items, accepts item := by
  intro path json
  cases json with
  | array items => simp [violations, itemViolations_eq_nil_iff describes]
  | null => simp [violations, nullViolations_eq_nil_iff]
  | bool | int | float | text | object => simp [violations, typeViolation]

theorem Describes.map (describes : schema.Describes accepts) (orNull : Bool) :
    (Schema.map orNull schema).Describes fun json =>
      (orNull = true ∧ json = .null) ∨
        ∃ members, json = .object members ∧ ∀ entry ∈ members, accepts entry.2 := by
  intro path json
  cases json with
  | object members => simp [violations, memberViolations_eq_nil_iff describes]
  | null => simp [violations, nullViolations_eq_nil_iff]
  | bool | int | float | text | array => simp [violations, typeViolation]

theorem Describes.pair (describes : schema.Describes accepts)
    (otherDescribes : other.Describes otherAccepts) :
    (Schema.pair schema other).Describes fun json =>
      ∃ first second, json = .array [first, second] ∧ accepts first ∧ otherAccepts second := by
  intro path json
  cases json with
  | array items =>
      match items with
      | [] => simp [violations, pairViolations]
      | [_] => simp [violations, pairViolations]
      | [first, second] =>
          have noSize :
              pairViolations schema.violations other.violations path [first, second] = [] ↔
                accepts first ∧ otherAccepts second := by
            simp [pairViolations, itemViolations, describes _ _, otherDescribes _ _]
          rw [violations, noSize]
          constructor
          · rintro ⟨fits, otherFits⟩
            exact ⟨first, second, rfl, fits, otherFits⟩
          · rintro ⟨_, _, same, fits, otherFits⟩
            cases same
            exact ⟨fits, otherFits⟩
      | first :: second :: third :: rest =>
          have short : ¬rest.length + 1 + 1 + 1 < 2 := by omega
          simp [violations, pairViolations, short]
  | null | bool | int | float | text | object => simp [violations, typeViolation]

def MemberFits (complete : Bool) (present : NameMap Json) (path : JsonPath)
    (member : String × Schema) : Prop :=
  match present.get? member.1 with
  | some value => member.2.violations (path ++ [member.1]) value = []
  | none => complete = false

theorem recordViolations_eq_nil_iff {complete : Bool} {present : NameMap Json} {path : JsonPath}
    {members : List (String × Schema)} :
    recordViolations complete present path members = [] ↔
      ∀ member ∈ members, MemberFits complete present path member := by
  induction members with
  | nil => simp [recordViolations]
  | cons member members ih =>
      rw [recordViolations, List.append_eq_nil_iff, List.forall_mem_cons, ih, MemberFits]
      refine and_congr_left fun _ => ?_
      cases present.get? member.1 with
      | some value => rfl
      | none => cases complete <;> simp

theorem violations_record_eq_nil_iff {complete : Bool} {members : List (String × Schema)}
    {path : JsonPath} {json : Json} :
    (Schema.record complete members).violations path json = [] ↔
      ∃ present, json = .object present ∧
        ∀ member ∈ members, MemberFits complete present path member := by
  cases json with
  | object present => simp [violations, recordViolations_eq_nil_iff]
  | null | bool | int | float | text | array => simp [violations, typeViolation]

theorem violations_anyOf_eq_nil_iff {alternatives : List Schema} {path : JsonPath} {json : Json} :
    (Schema.anyOf alternatives).violations path json = [] ↔
      ∃ schema ∈ alternatives, schema.violations path json = [] := by
  have fits : fitsAny alternatives path json = true ↔
      ∃ schema ∈ alternatives, schema.violations path json = [] := by
    induction alternatives with
    | nil => simp [fitsAny]
    | cons schema alternatives ih => simp [fitsAny, ih]
  rw [← fits, violations]
  cases fitsAny alternatives path json <;> simp

theorem Describes.either (describes : schema.Describes accepts)
    (otherDescribes : other.Describes otherAccepts) :
    (Schema.anyOf [schema, other]).Describes fun json => accepts json ∨ otherAccepts json := by
  intro path json
  simp [violations_anyOf_eq_nil_iff, describes _ _, otherDescribes _ _]

end TableSieve.Schema
