import Mathlib.Data.List.Sort
import TableSieve.Proofs.NameMaps
import TableSieve.Proofs.Resampling

/-!
What a registry builds from a configuration, in terms of the calls that registered its kinds and of
the entries from which the configuration was put together. Both keep the last entry for a name, but
a registry has its names in the order in which they first came, a configuration in ascending order.
-/

namespace TableSieve

variable {α : Type}

def latest? (entries : List (String × α)) (name : String) : Option α :=
  NameMap.get? entries.reverse name

namespace NameMap

theorem ascending_ofEntries (entries : List (String × α)) : (ofEntries entries).Ascending := by
  have onto (entries : List (String × α)) : ∀ map : NameMap α, map.Ascending →
      (entries.foldl (fun map entry => insert entry.1 entry.2 map) map).Ascending := by
    induction entries with
    | nil => exact fun _ ascending => ascending
    | cons entry entries ih => exact fun map ascending => ih _ (ascending.insert entry.1 entry.2)
  exact onto entries [] .nil

theorem get?_ofEntries (entries : List (String × α)) (name : String) :
    (ofEntries entries).get? name = latest? entries name := by
  have onto (entries : List (String × α)) : ∀ map : NameMap α, map.Ascending →
      (entries.foldl (fun map entry => insert entry.1 entry.2 map) map).get? name =
        (latest? entries name).or (map.get? name) := by
    induction entries with
    | nil => exact fun _ _ => rfl
    | cons entry entries ih =>
        intro map ascending
        rw [List.foldl_cons, ih _ (ascending.insert entry.1 entry.2), ascending.get?_insert,
          latest?, latest?, List.reverse_cons, get?_append, get?_cons, Option.or_assoc]
        split <;> simp [get?]
  exact (onto entries [] .nil).trans (by simp [get?])

end NameMap

theorem isSome_latest?_iff {entries : List (String × α)} {name : String} :
    (latest? entries name).isSome = true ↔ name ∈ entries.map (·.1) := by
  rw [latest?, NameMap.isSome_get?_iff, NameMap.names, List.map_reverse, List.mem_reverse]

theorem latest?_append_singleton (entries : List (String × α)) (name : String) (value : α)
    (other : String) : latest? (entries ++ [(name, value)]) other =
      if name = other then some value else latest? entries other := by
  rw [latest?, List.reverse_append, List.reverse_singleton, List.singleton_append,
    NameMap.get?_cons, latest?]

namespace Config

def ofEntries (entries : List (String × Json)) : Config :=
  ⟨.ofEntries entries⟩

theorem get?_ofEntries (entries : List (String × Json)) (kind : String) :
    (ofEntries entries).get? kind = latest? entries kind :=
  NameMap.get?_ofEntries entries kind

theorem ascending_kinds (entries : List (String × Json)) :
    (ofEntries entries).kinds.Pairwise (· < ·) :=
  NameMap.ascending_ofEntries entries

theorem mem_kinds_iff {entries : List (String × Json)} {name : String} :
    name ∈ (ofEntries entries).kinds ↔ name ∈ entries.map (·.1) := by
  rw [kinds, ← NameMap.isSome_get?_iff, ofEntries, NameMap.get?_ofEntries, isSome_latest?_iff]

end Config

/-! Registries. -/

namespace Registry

def builtInCalls : List (String × Builder) :=
  ConstraintKind.all.map fun kind => (kind.name, kind.build)

variable {Error Made : Type}

/-- The registry is what the calls make of an empty one. So is the one of the built-in kinds, with
its own calls before those that follow. -/
inductive Reached : List (String × Builder Error Made) → Registry Error Made → Prop
  | empty : Reached [] .empty
  | register {calls : List (String × Builder Error Made)} {registry : Registry Error Made}
      (reached : Reached calls registry) (name : String) (builder : Builder Error Made) :
      Reached (calls ++ [(name, builder)]) (registry.register name builder)

theorem reached_builtIn : Reached builtInCalls builtIn :=
  ((Reached.empty.register _ _).register _ _).register _ _

theorem registerIn_map_into {Wider : Type} (box : Made → Wider) (name : String)
    (builder : Builder Error Made) (builders : List (String × Builder Error Made)) :
    (registerIn name builder builders).map (Prod.map id (Builder.into box)) =
      registerIn name (builder.into box) (builders.map (Prod.map id (Builder.into box))) := by
  induction builders with
  | nil => rfl
  | cons entry rest ih =>
      simp only [registerIn, List.map_cons, Prod.map_fst, id_eq]
      split
      · rfl
      · rw [List.map_cons, ih]

theorem Reached.widen {Wider : Type} {calls : List (String × Builder Error Made)}
    {registry : Registry Error Made} (reached : Reached calls registry) (box : Made → Wider) :
    Reached (calls.map (Prod.map id (Builder.into box))) (registry.widen box) := by
  induction reached with
  | empty => exact .empty
  | @register calls registry _ name builder ih =>
      rw [List.map_append]
      have widened : (registry.register name builder).widen box =
          (registry.widen box).register name (builder.into box) :=
        congrArg Registry.mk (registerIn_map_into box name builder registry.builders)
      rw [widened]
      exact ih.register name _

theorem get?_registerIn (name : String) (builder : Builder Error Made)
    (builders : List (String × Builder Error Made)) (other : String) :
    NameMap.get? (registerIn name builder builders) other =
      if name = other then some builder else NameMap.get? builders other := by
  induction builders with
  | nil => rw [registerIn, NameMap.get?_cons]
  | cons entry rest ih =>
      rw [registerIn]
      split
      · rename_i same
        rw [NameMap.get?_cons, NameMap.get?_cons, same]
        split <;> rfl
      · rename_i different
        rw [NameMap.get?_cons, ih, NameMap.get?_cons]
        by_cases here : entry.1 = other
        · simp [here, Ne.symm (here ▸ different)]
        · simp [here]

theorem names_register (registry : Registry Error Made) (name : String)
    (builder : Builder Error Made) :
    (registry.register name builder).names =
      if name ∈ registry.names then registry.names else registry.names ++ [name] := by
  obtain ⟨builders⟩ := registry
  rw [register, names, names]
  induction builders with
  | nil => rfl
  | cons entry rest ih =>
      rw [registerIn]
      by_cases same : entry.1 = name
      · simp [same]
      · rw [if_neg same, List.map_cons, ih]
        by_cases later : name ∈ rest.map (·.1) <;> simp [later, Ne.symm same]

variable {calls : List (String × Builder Error Made)} {registry : Registry Error Made}

theorem Reached.get?_builders (reached : Reached calls registry) (name : String) :
    NameMap.get? registry.builders name = latest? calls name := by
  induction reached with
  | empty => rfl
  | register reached added builder ih =>
      rw [Registry.register, get?_registerIn, ih, latest?_append_singleton]

theorem Reached.mem_names_iff (reached : Reached calls registry) {name : String} :
    name ∈ registry.names ↔ name ∈ calls.map (·.1) := by
  rw [← isSome_latest?_iff, ← reached.get?_builders, NameMap.isSome_get?_iff]
  rfl

theorem Reached.names_ordered (reached : Reached calls registry) :
    registry.names.Pairwise fun first second =>
      (calls.map (·.1)).idxOf first < (calls.map (·.1)).idxOf second := by
  induction reached with
  | empty => exact .nil
  | @register calls registry reached name builder ih =>
      have before : registry.names.Pairwise fun first second =>
          ((calls ++ [(name, builder)]).map (·.1)).idxOf first <
            ((calls ++ [(name, builder)]).map (·.1)).idxOf second := by
        refine ih.imp_of_mem fun first second less => ?_
        rw [List.map_append, List.idxOf_append_of_mem (reached.mem_names_iff.mp first),
          List.idxOf_append_of_mem (reached.mem_names_iff.mp second)]
        exact less
      rw [names_register]
      split
      · exact before
      · rename_i isNew
        refine List.pairwise_append.mpr ⟨before, List.pairwise_singleton .., ?_⟩
        intro other known added isAdded
        obtain rfl := List.mem_singleton.mp isAdded
        have earlier := List.idxOf_lt_length_of_mem (reached.mem_names_iff.mp known)
        rw [List.map_append, List.idxOf_append_of_mem (reached.mem_names_iff.mp known),
          List.idxOf_append_of_notMem fun member => isNew (reached.mem_names_iff.mpr member)]
        exact Nat.lt_add_right _ earlier

theorem Reached.names_nodup (reached : Reached calls registry) : registry.names.Nodup :=
  reached.names_ordered.imp fun {first second} less (same : first = second) => by
    rw [same] at less
    exact Nat.lt_irrefl _ less

def attempts (config : Config) (builders : List (String × Builder Error Made)) :
    List (Except Error Made) :=
  builders.filterMap fun entry => (config.get? entry.1).map entry.2

theorem buildAll_cases (config : Config) (builders : List (String × Builder Error Made)) :
    (∃ error, ∃ constraints : List Made, ∃ rest, buildAll config builders = .error error ∧
        attempts config builders = constraints.map .ok ++ .error error :: rest) ∨
      ∃ constraints, buildAll config builders = .ok constraints ∧
        attempts config builders = constraints.map .ok := by
  unfold attempts
  induction builders with
  | nil => exact .inr ⟨[], rfl, rfl⟩
  | cons entry rest ih =>
      obtain ⟨name, builder⟩ := entry
      rw [buildAll, List.filterMap_cons]
      cases config.get? name with
      | none => exact ih
      | some value =>
          simp only [Option.map_some]
          cases builder value with
          | error error => exact .inl ⟨error, [], _, rfl, rfl⟩
          | ok constraint =>
              rcases ih with ⟨error, constraints, more, stopped, same⟩ | ⟨constraints, built, same⟩
              · refine .inl ⟨error, constraint :: constraints, more, ?_, by rw [same]; rfl⟩
                rw [stopped]
                rfl
              · refine .inr ⟨constraint :: constraints, ?_, by rw [same]; rfl⟩
                rw [built]
                rfl

/-- What the builder last registered for a name makes of the value last given for it, if there are
both. -/
def outcome? (calls : List (String × Builder Error Made)) (entries : List (String × Json))
    (name : String) : Option (Except Error Made) :=
  (latest? calls name).bind fun builder => (latest? entries name).map builder

theorem isSome_outcome?_iff {entries : List (String × Json)} {name : String} :
    (outcome? calls entries name).isSome = true ↔
      name ∈ calls.map (·.1) ∧ name ∈ entries.map (·.1) := by
  rw [← isSome_latest?_iff, ← isSome_latest?_iff, outcome?]
  cases latest? calls name <;> simp

theorem Reached.attempts_eq (reached : Reached calls registry) (entries : List (String × Json)) :
    attempts (.ofEntries entries) registry.builders =
      registry.names.filterMap (outcome? calls entries) := by
  rw [attempts, names, List.filterMap_map]
  refine List.filterMap_congr fun entry member => ?_
  have found : latest? calls entry.1 = some entry.2 := by
    have first : registry.builders.find? (·.1 == entry.1) = some entry :=
      find?_of_distinct reached.names_nodup member
    rw [← reached.get?_builders, NameMap.get?, first, Option.map_some]
  rw [Function.comp_apply, outcome?, found, Config.get?_ofEntries]
  rfl

theorem Reached.length_add_length (reached : Reached calls registry)
    (entries : List (String × Json)) :
    (registry.names.filterMap (outcome? calls entries)).length +
        (registry.unknownKinds (.ofEntries entries)).length =
      (Config.ofEntries entries).kinds.length := by
  have known : (registry.names.filter fun name => (outcome? calls entries name).isSome).Perm
      ((Config.ofEntries entries).kinds.filter fun name => registry.contains name) := by
    refine (List.perm_ext_iff_of_nodup (reached.names_nodup.filter _) ?_).mpr fun name => ?_
    · exact (Config.ascending_kinds entries).imp (fun {_ _} less => less.ne) |>.filter _
    · simp only [List.mem_filter, isSome_outcome?_iff, Config.mem_kinds_iff, contains,
        List.contains_iff_mem, reached.mem_names_iff]
      tauto
  rw [List.length_filterMap_eq_countP, List.countP_eq_length_filter, known.length_eq, unknownKinds,
    List.length_map]
  exact (List.length_eq_length_filter_add _).symm

/-- The names of a registry are those of the calls, each once and in the order of its first call.
If building from a configuration fails, it is with the first error among the outcomes for these
names. If not, the pipeline has every outcome as a constraint, and for every other key of the
configuration, in ascending order, a warning that the kind is unknown, which lists those known. -/
theorem build_of_reached (reached : Reached calls registry) (entries : List (String × Json)) :
    let config := Config.ofEntries entries
    let outcomes := registry.names.filterMap (outcome? calls entries)
    let known := ", ".intercalate registry.names
    let unknownKind (name : String) : Warning :=
      ⟨"unknown_constraint_kind", name, name,
        s!"'{name}' is not a registered constraint kind (known: {known})"⟩
    (registry.names.Nodup ∧
      (∀ name, name ∈ registry.names ↔ name ∈ calls.map (·.1)) ∧
      registry.names.Pairwise fun first second =>
        (calls.map (·.1)).idxOf first < (calls.map (·.1)).idxOf second) ∧
    (config.kinds.Nodup ∧ ∀ name, name ∈ config.kinds ↔ name ∈ entries.map (·.1)) ∧
    ((∃ error, ∃ constraints : List Made, ∃ rest,
        outcomes = constraints.map .ok ++ .error error :: rest ∧
          registry.build config = .error error) ∨
      ∃ pipeline, ∃ unknown : List String, registry.build config = .ok pipeline ∧
        outcomes = pipeline.constraints.map .ok ∧
        unknown.Pairwise (· < ·) ∧
        (∀ name, name ∈ unknown ↔ name ∈ config.kinds ∧ name ∉ registry.names) ∧
        pipeline.buildLog = WarningLog.empty.recordAll (unknown.map unknownKind) ∧
        pipeline.buildLog.warnings = unknown.map unknownKind ∧
        pipeline.constraints.length + pipeline.buildLog.size = config.kinds.length) := by
  intro config outcomes known unknownKind
  have ascending : config.kinds.Pairwise (· < ·) := Config.ascending_kinds entries
  refine ⟨⟨reached.names_nodup, fun _ => reached.mem_names_iff, reached.names_ordered⟩,
    ⟨ascending.imp fun {_ _} less => less.ne, fun _ => Config.mem_kinds_iff⟩, ?_⟩
  have cases := buildAll_cases config registry.builders
  rw [reached.attempts_eq entries] at cases
  rcases cases with ⟨error, constraints, rest, stopped, same⟩ | ⟨constraints, built, same⟩
  · exact .inl ⟨error, constraints, rest, same, by rw [build, stopped]; rfl⟩
  · have recorded : (WarningLog.empty.recordAll (registry.unknownKinds config)).warnings =
        registry.unknownKinds config := WarningLog.warnings_recordAll _ _
    have total := reached.length_add_length entries
    rw [same, List.length_map] at total
    refine .inr ⟨⟨constraints, WarningLog.empty.recordAll (registry.unknownKinds config)⟩,
      config.kinds.filter fun name => !registry.contains name, by rw [build, built]; rfl, same,
      ascending.filter _, fun name => ?_, rfl, recorded, ?_⟩
    · simp [contains]
    · rw [WarningLog.size, recorded]
      exact total

end Registry

structure Positive where
  field : String

namespace Positive

def kindName : String := "positive"

def build : Builder ConfigError Positive
  | .text field => .ok ⟨field⟩
  | _ => .error (.invalid kindName "expected a field name")

def marks (cell : Cell) : Bool :=
  match cell.number? with
  | some number => 0 < Number.rank number
  | none => false

def filter (positive : Positive) (table : Table) : Filtering :=
  .ofTable ((table.column positive.field).map fun column => table.filter (column.cells.map marks))

instance : Constraining Positive where
  kindName _ := kindName
  fields positive := [positive.field]
  apply positive table :=
    match table.checkFields kindName [positive.field] with
    | .error error => .stop error
    | .ok () => positive.filter table

example :
    let table : Table := ⟨[⟨"x", .float, [.float 0.5, .null, .float (-1), .int 2]⟩], 4⟩
    (Constraining.apply (⟨"x"⟩ : Positive) table).result =
      .ok ⟨[⟨"x", .float, [.float 0.5, .int 2]⟩], 2⟩ := by
  rfl

end Positive

theorem Registry.build_of_reached_extended :
    let boxed : Builder ConfigError (Constraint ⊕ Positive) := Positive.build.into .inr
    let calls := builtInCalls.map (Prod.map id (Builder.into .inl)) ++ [("positive", boxed)] ++
      [("nan_groups", boxed)]
    let registry := ((builtIn.widen .inl).register "positive" boxed).register "nan_groups" boxed
    let entries := [("zone", .null), ("positive", .text "y"), ("field_combinations", .array []),
      ("nan_groups", .text "x"), ("area", .null)]
    let known := "nan_groups, field_constraints, field_combinations, positive"
    let unknownKind (name : String) : Warning :=
      ⟨"unknown_constraint_kind", name, name,
        s!"'{name}' is not a registered constraint kind (known: {known})"⟩
    Reached calls registry ∧ ∃ pipeline, registry.build (.ofEntries entries) = .ok pipeline ∧
      pipeline.constraints = [.inr ⟨"x"⟩, .inl (.combinations ⟨[]⟩), .inr ⟨"y"⟩] ∧
      pipeline.kindNames = ["positive", "field_combinations", "positive"] ∧
      pipeline.buildLog.warnings = [unknownKind "area", unknownKind "zone"] := by
  intro boxed calls registry entries known unknownKind
  have reached : Reached calls registry :=
    ((reached_builtIn.widen .inl).register "positive" boxed).register "nan_groups" boxed
  let made : List (Constraint ⊕ Positive) := [.inr ⟨"x"⟩, .inl (.combinations ⟨[]⟩), .inr ⟨"y"⟩]
  have outcomes : registry.names.filterMap (outcome? calls entries) = made.map .ok := rfl
  have keys : (Config.ofEntries entries).kinds =
      ["area", "field_combinations", "nan_groups", "positive", "zone"] := by
    decide +kernel
  have okInjective :
      Function.Injective (.ok : _ → Except ConfigError (Constraint ⊕ Positive)) :=
    fun _ _ => Except.ok.inj
  refine ⟨reached, ?_⟩
  obtain ⟨_, _, ⟨error, constraints, rest, same, _⟩ | ⟨pipeline, unknown, built, same, more⟩⟩ :=
    build_of_reached reached entries
  · have listed : .error error ∈ made.map (.ok : _ → Except ConfigError _) := by
      rw [← outcomes, same]
      simp
    simp at listed
  · obtain ⟨ascending, members, _, warnings, _⟩ := more
    have constraints : pipeline.constraints = made :=
      List.map_injective_iff.mpr okInjective (same.symm.trans outcomes)
    have ordered : ["area", "zone"].Pairwise (· < ·) := by decide +kernel
    have names : unknown = ["area", "zone"] := by
      refine ascending.eq_of_mem_iff ordered fun name => ?_
      have registered : registry.names =
        ["nan_groups", "field_constraints", "field_combinations", "positive"] := rfl
      rw [members, keys, registered]
      grind
    refine ⟨pipeline, built, constraints, by rw [Pipeline.kindNames, constraints]; rfl, ?_⟩
    rw [warnings, names]
    rfl

end TableSieve
