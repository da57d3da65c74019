import TableSieve.Proofs.ParsedNodes
import TableSieve.Proofs.RowEvaluation

/-!
What an evaluation reports. The fields that it read are fields of the formula and of the table, and
all of the formula unless an issue ended it early. The issue that ended it points to a node: a field
that the table does not have, a date, a sum, or a predicate in the place of a value. A formula that
was read from a text has no such predicate, so only a date or a sum can end its evaluation over a
table that has its fields.
-/

namespace TableSieve

variable {table : Table}

def Formula.valueParts (formula : Formula) : List Formula :=
  formula.nodes.flatMap Formula.operands

/-- The issue ends an evaluation because of one of these nodes or values. -/
def Issue.Blames (table : Table) (nodes values : List Formula) : Issue → Prop
  | .unknownField name => .field name ∈ nodes ∧ table.hasColumn name = false
  | .badDate text _ => .literal (.date text) ∈ nodes
  | .badSum sum => sum ∈ nodes
  | .notAValue part => part ∈ values ∧ part.isPredicate = true
  | .incomparable _ => False

theorem Issue.Blames.mono {nodes values moreNodes moreValues : List Formula} {issue : Issue}
    (blames : issue.Blames table nodes values) (nodesInside : nodes ⊆ moreNodes)
    (valuesInside : values ⊆ moreValues) : issue.Blames table moreNodes moreValues := by
  cases issue with
  | unknownField _ => exact ⟨nodesInside blames.1, blames.2⟩
  | badDate _ _ | badSum _ => exact nodesInside blames
  | notAValue _ => exact ⟨valuesInside blames.1, blames.2⟩
  | incomparable _ => exact blames

namespace Progress

variable {α β : Type} {names : List String} {nodes values : List Formula}

/-- What a part of an evaluation says of the fields that it should read, and what it blames. -/
structure Reports (table : Table) (names : List String) (nodes values : List Formula)
    (progress : Progress α) : Prop where
  touched_sound : ∀ name ∈ progress.touched, name ∈ names ∧ table.hasColumn name = true
  touched_all : ∀ value, progress.result = .ok value → progress.touched = names
  blames : ∀ issue, progress.result = .error issue → issue.Blames table nodes values

namespace Reports

theorem stop {issue : Issue} (blames : issue.Blames table nodes values) :
    (Progress.stop issue : Progress α).Reports table names nodes values where
  touched_sound := List.forall_mem_nil _
  touched_all := by
    intro value given
    cases given
  blames := by
    intro other given
    obtain rfl := Except.error.inj given
    exact blames

theorem ok (value : α) (issues : List Issue) :
    (⟨.ok value, [], issues⟩ : Progress α).Reports table [] nodes values where
  touched_sound := List.forall_mem_nil _
  touched_all _ _ := rfl
  blames := by
    intro issue given
    cases given

theorem andThen {more : List String} {first : Progress α} {next : α → Progress β}
    (reports : first.Reports table names nodes values)
    (nextReports : ∀ value, (next value).Reports table more nodes values) :
    (first.andThen next).Reports table (names ++ more) nodes values := by
  unfold Progress.andThen
  cases given : first.result with
  | error issue =>
      refine ⟨?_, ?_, ?_⟩
      · intro name member
        exact (reports.touched_sound name member).imp_left (List.mem_append_left more)
      · intro value impossible
        cases impossible
      · intro other same
        obtain rfl := Except.error.inj same
        exact reports.blames issue given
  | ok value =>
      have later := nextReports value
      refine ⟨?_, ?_, ?_⟩
      · intro name member
        rcases List.mem_append.mp member with early | late
        · exact (reports.touched_sound name early).imp_left (List.mem_append_left more)
        · exact (later.touched_sound name late).imp_left (List.mem_append_right names)
      · intro result nextGiven
        simp only [reports.touched_all value given, later.touched_all result nextGiven]
      · exact later.blames

theorem andThen_ok {first : Progress α} {next : α → Progress β}
    (reports : first.Reports table names nodes values)
    (nextReports : ∀ value, (next value).Reports table [] nodes values) :
    (first.andThen next).Reports table names nodes values := by
  have whole := reports.andThen nextReports
  rwa [List.append_nil] at whole

theorem mono {moreNodes moreValues : List Formula} {progress : Progress α}
    (reports : progress.Reports table names nodes values) (nodesInside : nodes ⊆ moreNodes)
    (valuesInside : values ⊆ moreValues) :
    progress.Reports table names moreNodes moreValues where
  touched_sound := reports.touched_sound
  touched_all := reports.touched_all
  blames issue given := (reports.blames issue given).mono nodesInside valuesInside

end Reports

end Progress

namespace Formula

theorem mem_fieldList_iff {name : String} {formula : Formula} :
    name ∈ formula.fieldList ↔ .field name ∈ formula.nodes := by
  induction formula <;> simp_all [fieldList, nodes]

theorem valueParts_subset {part whole : Formula} (contained : part.nodes ⊆ whole.nodes) :
    part.valueParts ⊆ whole.valueParts := by
  intro value member
  obtain ⟨node, inside, taken⟩ := List.mem_flatMap.mp member
  exact List.mem_flatMap.mpr ⟨node, contained inside, taken⟩

theorem cell_blames {value : Literal} {issue : Issue} (failed : value.cell = .error issue)
    {nodes values : List Formula} (member : .literal value ∈ nodes) :
    issue.Blames table nodes values := by
  cases value with
  | date text =>
      simp only [Literal.cell] at failed
      split at failed
      · cases failed
      · obtain rfl := Except.error.inj failed
        exact member
  | _ => simp [Literal.cell] at failed

theorem operand_reports {formula operand : Formula} (member : operand ∈ formula.operands)
    (reports : (operand.resolve table).Reports table operand.fieldList operand.nodes
      (operand :: operand.valueParts)) :
    (operand.resolve table).Reports table operand.fieldList formula.nodes formula.valueParts := by
  have contained := nodes_subset_of_operand member
  refine reports.mono contained (List.cons_subset.mpr ⟨?_, valueParts_subset contained⟩)
  exact List.mem_flatMap.mpr ⟨formula, self_mem_nodes formula, member⟩

theorem resolve_reports (formula : Formula) :
    (formula.resolve table).Reports table formula.fieldList formula.nodes
      (formula :: formula.valueParts) := by
  induction formula with
  | field name =>
      simp only [resolve]
      split
      · rename_i column found
        refine ⟨?_, fun _ _ => rfl, fun _ failed => by cases failed⟩
        exact List.forall_mem_singleton.mpr
          ⟨List.mem_singleton_self name, by simp [Table.hasColumn, found]⟩
      · rename_i absent
        exact .stop ⟨self_mem_nodes _, by simp [Table.hasColumn, absent]⟩
  | literal value =>
      simp only [resolve]
      split
      · exact .ok _ _
      · rename_i issue failed
        exact .stop (cell_blames failed (self_mem_nodes _))
  | sum left right leftReports rightReports =>
      have leftOperand : left ∈ (Formula.sum left right).operands := by simp [operands]
      have rightOperand : right ∈ (Formula.sum left right).operands := by simp [operands]
      suffices reports : ((Formula.sum left right).resolve table).Reports table
          (Formula.sum left right).fieldList (Formula.sum left right).nodes
          (Formula.sum left right).valueParts from
        reports.mono (List.Subset.refl _) (List.subset_cons_self _ _)
      refine (operand_reports leftOperand leftReports).andThen fun lefts => ?_
      refine (operand_reports rightOperand rightReports).andThen_ok fun rights => ?_
      simp only
      split
      · exact .ok _ _
      · exact .stop (self_mem_nodes (.sum left right))
  | _ => exact .stop ⟨List.mem_cons_self .., rfl⟩

theorem value_reports {formula : Formula} (value : formula.isPredicate = false) :
    (formula.resolve table).Reports table formula.fieldList formula.nodes formula.valueParts where
  touched_sound := (resolve_reports formula).touched_sound
  touched_all := (resolve_reports formula).touched_all
  blames := by
    intro issue failed
    have blames := (resolve_reports formula).blames issue failed
    cases issue with
    | notAValue part =>
        -- The formula is a value, so the predicate in place of one lies inside it.
        obtain ⟨member, predicate⟩ := blames
        rcases List.mem_cons.mp member with rfl | inside
        · simp [value] at predicate
        · exact ⟨inside, predicate⟩
    | _ => exact blames

theorem part_reports {part whole : Formula} (contained : part.nodes ⊆ whole.nodes)
    (reports : (part.mask table).Reports table part.fieldList part.nodes part.valueParts) :
    (part.mask table).Reports table part.fieldList whole.nodes whole.valueParts :=
  reports.mono contained (valueParts_subset contained)

theorem mask_reports (formula : Formula) :
    (formula.mask table).Reports table formula.fieldList formula.nodes formula.valueParts := by
  induction formula with
  | compare left comparison right =>
      have leftOperand : left ∈ (Formula.compare left comparison right).operands := by
        simp [operands]
      have rightOperand : right ∈ (Formula.compare left comparison right).operands := by
        simp [operands]
      exact (operand_reports leftOperand (resolve_reports left)).andThen fun lefts =>
        (operand_reports rightOperand (resolve_reports right)).andThen_ok fun rights => .ok _ _
  | nullTest operand negated =>
      have member : operand ∈ (Formula.nullTest operand negated).operands := by simp [operands]
      exact (operand_reports member (resolve_reports operand)).andThen_ok fun cells => .ok _ _
  | both left right leftReports rightReports | either left right leftReports rightReports =>
      refine (part_reports ?_ leftReports).andThen fun lefts =>
        (part_reports ?_ rightReports).andThen_ok fun rights => .ok _ _
      · simp [nodes]
      · simp [nodes]
  | group inner innerReports =>
      have contained : inner.nodes ⊆ (Formula.group inner).nodes := by simp [nodes]
      exact innerReports.mono contained (valueParts_subset contained)
  | _ => exact (value_reports rfl).andThen_ok fun cells => .ok _ _

theorem valueParts_of_parse {text : String} {formula : Formula}
    (parsed : parse text = .ok formula) :
    ∀ part ∈ formula.valueParts, part.isPredicate = false := by
  intro part member
  obtain ⟨node, inside, taken⟩ := List.mem_flatMap.mp member
  exact ((grammatical_of_parse parsed).1 node inside).values part taken

theorem code_of_marksOf_error {text : String} {formula : Formula} {issue : Issue}
    (parsed : parse text = .ok formula)
    (known : ∀ name ∈ formula.fields, table.hasColumn name = true)
    (failed : marksOf table formula = .error issue) :
    issue.code = "unparseable_literal" ∨ issue.code = "invalid_sum" := by
  have blames := (mask_reports formula).blames issue failed
  cases issue with
  | unknownField name =>
      obtain ⟨inside, absent⟩ := blames
      have present := known name (mem_sortNames.mpr (mem_fieldList_iff.mpr inside))
      simp [present] at absent
  | badDate _ _ => exact Or.inl rfl
  | badSum _ => exact Or.inr rfl
  | notAValue part =>
      obtain ⟨member, predicate⟩ := blames
      simp [valueParts_of_parse parsed part member] at predicate
  | incomparable _ => exact blames.elim

theorem code_of_mem_issues {formula : Formula} {issue : Issue}
    (member : issue ∈ (formula.mask table).issues) : issue.code = "incomparable_types" := by
  have harmless := isFatal_of_mem_issues member
  cases issue with
  | incomparable _ => rfl
  | _ => simp [Issue.isFatal] at harmless

theorem length_mask (wellFormed : table.WellFormed) (formula : Formula) :
    (formula.evaluate table).mask.length = table.size := by
  cases result : marksOf table formula with
  | error issue => rw [(evaluate_of_marksOf_error result).1, List.length_replicate]
  | ok marks =>
      have lengths := congrArg List.length (map_holdsOn wellFormed result)
      rw [List.length_map, List.length_map, wellFormed.length_rows] at lengths
      rw [(evaluate_of_marksOf_ok result).1, lengths]

theorem fatal_of_marksOf_error (wellFormed : table.WellFormed) {formula : Formula} {issue : Issue}
    (failed : marksOf table formula = .error issue) : issue.code ∈ Issue.fatalCodes :=
  Issue.isFatal_iff.mp (failed ▸ marksOf_agrees wellFormed formula).isFatal

theorem issues_split (wellFormed : table.WellFormed) (formula : Formula) :
    ∃ notes last, (formula.evaluate table).issues = notes ++ last ∧
      (∀ issue ∈ notes, issue.code = "incomparable_types") ∧
      last.length ≤ 1 ∧ ∀ issue ∈ last, issue.code ∈ Issue.fatalCodes := by
  refine ⟨(formula.mask table).issues, ?_⟩
  cases result : marksOf table formula with
  | error issue =>
      refine ⟨[issue], (evaluate_of_marksOf_error result).2, fun _ => code_of_mem_issues,
        Nat.le_refl 1, List.forall_mem_singleton.mpr (fatal_of_marksOf_error wellFormed result)⟩
  | ok marks =>
      refine ⟨[], ?_, fun _ => code_of_mem_issues, Nat.zero_le 1, List.forall_mem_nil _⟩
      rw [(evaluate_of_marksOf_ok result).2, List.append_nil]

theorem marksOf_of_fatal {formula : Formula} {issue : Issue}
    (member : issue ∈ (formula.evaluate table).issues) (fatal : issue.code ∈ Issue.fatalCodes) :
    marksOf table formula = .error issue := by
  have notNoted : issue ∉ (formula.mask table).issues := by
    intro noted
    rw [code_of_mem_issues noted] at fatal
    exact absurd fatal (by decide)
  cases result : marksOf table formula with
  | error other =>
      rw [(evaluate_of_marksOf_error result).2] at member
      rw [List.mem_singleton.mp ((List.mem_append.mp member).resolve_left notNoted)]
  | ok marks =>
      rw [(evaluate_of_marksOf_ok result).2] at member
      exact absurd member notNoted

theorem touched_evaluate (formula : Formula) :
    (formula.evaluate table).touched = sortNames (formula.mask table).touched := by
  simp only [evaluate]
  split <;> rfl

/-- An evaluation marks every row or none, notes unlike cells before the one issue that can end it,
and reads fields of the formula that the table has: all of them unless it ended early, which for a
formula that was read, over a table with its fields, only a date or a sum can do. -/
theorem evaluate_reports (wellFormed : table.WellFormed) (formula : Formula) :
    (formula.evaluate table).mask.length = table.size ∧
      (∃ notes last, (formula.evaluate table).issues = notes ++ last ∧
        (∀ issue ∈ notes, issue.code = "incomparable_types") ∧
        last.length ≤ 1 ∧ ∀ issue ∈ last, issue.code ∈ Issue.fatalCodes) ∧
      ((∃ issue ∈ (formula.evaluate table).issues, issue.code ∈ Issue.fatalCodes) →
        (formula.evaluate table).mask = List.replicate table.size false) ∧
      (∀ name ∈ (formula.evaluate table).touched,
        name ∈ formula.fields ∧ table.hasColumn name = true) ∧
      ((∀ issue ∈ (formula.evaluate table).issues, issue.code ∉ Issue.fatalCodes) →
        (formula.evaluate table).touched = formula.fields) ∧
      ∀ text, parse text = .ok formula →
        (∀ name ∈ formula.fields, table.hasColumn name = true) →
        ∀ issue ∈ (formula.evaluate table).issues, issue.code ∈ Issue.fatalCodes →
          issue.code = "unparseable_literal" ∨ issue.code = "invalid_sum" := by
  have reports : (formula.mask table).Reports table formula.fieldList formula.nodes
      formula.valueParts := mask_reports formula
  refine ⟨length_mask wellFormed formula, issues_split wellFormed formula, ?_, ?_, ?_, ?_⟩
  · rintro ⟨issue, member, fatal⟩
    exact (evaluate_of_marksOf_error (marksOf_of_fatal member fatal)).1
  · intro name member
    rw [touched_evaluate, mem_sortNames] at member
    exact (reports.touched_sound name member).imp_left mem_sortNames.mpr
  · intro noneFatal
    cases result : marksOf table formula with
    | error issue =>
        have listed : issue ∈ (formula.evaluate table).issues := by
          rw [(evaluate_of_marksOf_error result).2]
          exact List.mem_append_right _ (List.mem_singleton_self issue)
        exact absurd (fatal_of_marksOf_error wellFormed result) (noneFatal issue listed)
    | ok marks => rw [touched_evaluate, reports.touched_all marks result, fields]
  · intro text parsed known issue member fatal
    exact code_of_marksOf_error parsed known (marksOf_of_fatal member fatal)

theorem evaluate_reports_date :
    let text := "age > name & day < DATE(2024-02-30) & room == 1"
    let unlike : Formula := .compare (.field "age") .greater (.field "name")
    let formula : Formula :=
      .both (.both unlike (.compare (.field "day") .less (.literal (.date "2024-02-30"))))
        (.compare (.field "room") .equal (.literal (.int 1)))
    let table : Table :=
      ⟨[⟨"age", .int, [.int 30, .null, .int 17]⟩, ⟨"name", .text, [.text "a", .text "b", .null]⟩,
        ⟨"day", .date, [.null, .null, .null]⟩, ⟨"room", .int, [.int 1, .int 1, .int 2]⟩], 3⟩
    table.WellFormed ∧ parse text = .ok formula ∧
      (∀ name ∈ formula.fields, table.hasColumn name = true) ∧
      (formula.evaluate table).issues.map Issue.code =
        ["incomparable_types", "unparseable_literal"] ∧
      (formula.evaluate table).mask = [false, false, false] ∧
      (formula.evaluate table).touched = ["age", "day", "name"] ∧ "room" ∈ formula.fields ∧
      (∀ name ∈ ["age", "day", "name"], name ∈ formula.fields) ∧
      (∀ issue ∈ (formula.evaluate table).issues, issue.code ∈ Issue.fatalCodes →
        issue.code = "unparseable_literal" ∨ issue.code = "invalid_sum") ∧
      (unlike.evaluate table).issues.map Issue.code = ["incomparable_types"] ∧
      (unlike.evaluate table).touched = unlike.fields := by
  intro text unlike formula table
  have wellFormed : table.WellFormed := by decide +kernel
  have tokens : tokenize text =
      [⟨.identifier, "age"⟩, ⟨.operator, ">"⟩, ⟨.identifier, "name"⟩, ⟨.operator, "&"⟩,
        ⟨.identifier, "day"⟩, ⟨.operator, "<"⟩, ⟨.date, "DATE(2024-02-30)"⟩, ⟨.operator, "&"⟩,
        ⟨.identifier, "room"⟩, ⟨.operator, "=="⟩, ⟨.number, "1"⟩] := by
    decide +kernel
  have parsed : parse text = .ok formula := by
    rw [parse_eq_ofTokens, tokens]
    refine ⟨by decide +kernel, by decide +kernel, by decide +kernel, ?_⟩
    cbv
  have known : ∀ name ∈ formula.fields, table.hasColumn name = true := by decide +kernel
  have codes : (formula.evaluate table).issues.map Issue.code =
      ["incomparable_types", "unparseable_literal"] := by
    decide +kernel
  have ended : ∃ issue ∈ (formula.evaluate table).issues, issue.code ∈ Issue.fatalCodes := by
    decide +kernel
  have touched : (formula.evaluate table).touched = ["age", "day", "name"] := by decide +kernel
  have noneFatal : ∀ issue ∈ (unlike.evaluate table).issues, issue.code ∉ Issue.fatalCodes := by
    decide +kernel
  obtain ⟨_, _, fatalMask, touchedFields, _, read⟩ := evaluate_reports wellFormed formula
  obtain ⟨_, _, _, _, touchesAll, _⟩ := evaluate_reports wellFormed unlike
  refine ⟨wellFormed, parsed, known, codes, fatalMask ended, touched, by decide +kernel, ?_,
    read text parsed known, by decide +kernel, touchesAll noneFatal⟩
  rw [touched] at touchedFields
  exact fun name member => (touchedFields name member).1

end Formula

end TableSieve
