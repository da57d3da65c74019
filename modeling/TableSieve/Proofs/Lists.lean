import TableSieve.Table.Selection

/-!
Laws of selecting and traversing. Keeping marked elements and gathering positions act on every
element alone, so they pass through maps and zips; keeping the first of each class of keys can be
done in parts. A traversal that may fail succeeds when it does so on every element.
-/

namespace TableSieve

variable {α β γ : Type}

theorem keepMarked_zipWith (join : α → β → γ) (marks : List Bool) (lefts : List α)
    (rights : List β) :
    keepMarked marks (List.zipWith join lefts rights) =
      List.zipWith join (keepMarked marks lefts) (keepMarked marks rights) := by
  induction marks generalizing lefts rights with
  | nil => simp [keepMarked]
  | cons mark marks ih =>
      cases lefts with
      | nil => cases mark <;> simp [keepMarked]
      | cons left lefts =>
          cases rights with
          | nil => cases mark <;> simp [keepMarked]
          | cons right rights => cases mark <;> simp [keepMarked, ih]

theorem keepMarked_replicate (marks : List Bool) (size : Nat) (item : α) :
    keepMarked marks (List.replicate size item) =
      List.replicate ((marks.take size).count true) item := by
  induction marks generalizing size with
  | nil => simp [keepMarked]
  | cons mark marks ih =>
      cases size with
      | zero => cases mark <;> simp [keepMarked]
      | succ size => cases mark <;> simp [keepMarked, List.replicate_succ, ih]

theorem length_keepMarked (marks : List Bool) (items : List α) :
    (keepMarked marks items).length = (marks.take items.length).count true := by
  induction marks generalizing items with
  | nil => simp [keepMarked]
  | cons mark marks ih =>
      cases items with
      | nil => simp [keepMarked]
      | cons item items => cases mark <;> simp [keepMarked, ih]

theorem mem_of_mem_keepMarked {marks : List Bool} {items : List α} {item : α}
    (kept : item ∈ keepMarked marks items) : item ∈ items := by
  induction marks generalizing items with
  | nil => simp [keepMarked] at kept
  | cons mark marks ih =>
      cases items with
      | nil => simp [keepMarked] at kept
      | cons first items =>
          cases mark with
          | false => exact List.mem_cons_of_mem first (ih kept)
          | true =>
              simp only [keepMarked, List.mem_cons] at kept ⊢
              exact kept.imp_right ih

theorem keepMarked_map_marks (keep : α → Bool) (items : List α) :
    keepMarked (items.map keep) items = items.filter keep := by
  induction items with
  | nil => rfl
  | cons item items ih => cases passes : keep item <;> simp [keepMarked, passes, ih]

theorem filter_eq_filter_iff {keeps others : α → Bool} {items : List α} :
    items.filter keeps = items.filter others ↔ ∀ item ∈ items, keeps item = others item := by
  refine ⟨fun same item member => ?_, fun same => List.filter_congr same⟩
  have kept : keeps item = true ↔ others item = true := by
    have listed := congrArg (item ∈ ·) same
    simpa [List.mem_filter, member] using listed
  exact Bool.eq_iff_iff.mpr kept

theorem gather_eq_filterMap (positions : List Nat) (items : List α) :
    gather positions items = positions.filterMap fun position => items[position]? := by
  simp [gather]

theorem gather_append (front back : List Nat) (items : List α) :
    gather (front ++ back) items = gather front items ++ gather back items := by
  simp [gather_eq_filterMap]

theorem gather_range (items : List α) : gather (List.range items.length) items = items := by
  rw [gather_eq_filterMap]
  induction items with
  | nil => rfl
  | cons item items ih =>
      rw [List.length_cons, List.range_succ_eq_map]
      simpa [List.filterMap_map, Function.comp_def] using ih

theorem length_gather {positions : List Nat} {items : List α}
    (inRange : ∀ position ∈ positions, position < items.length) :
    (gather positions items).length = positions.length := by
  rw [gather_eq_filterMap]
  induction positions with
  | nil => rfl
  | cons position positions ih =>
      have first := inRange position (List.mem_cons_self ..)
      have rest := ih fun other member => inRange other (List.mem_cons_of_mem position member)
      simpa [first] using rest

theorem mem_of_mem_gather {positions : List Nat} {items : List α} {item : α}
    (member : item ∈ gather positions items) : item ∈ items := by
  rw [gather_eq_filterMap, List.mem_filterMap] at member
  obtain ⟨position, _, found⟩ := member
  exact List.mem_of_getElem? found

theorem gather_sublist_drop {positions : List Nat} (ascending : positions.Pairwise (· < ·))
    {start : Nat} (later : ∀ position ∈ positions, start ≤ position) (items : List α) :
    (gather positions items).Sublist (items.drop start) := by
  rw [gather_eq_filterMap]
  induction positions generalizing start with
  | nil => exact List.nil_sublist _
  | cons position positions ih =>
      obtain ⟨first, rest⟩ := List.pairwise_cons.mp ascending
      have startsBefore : start ≤ position := later position (List.mem_cons_self ..)
      have beyond : ∀ other ∈ positions, position + 1 ≤ other := first
      have back := ih rest beyond
      have front : (items.drop position).Sublist (items.drop start) := by
        have dropped := List.drop_sublist (position - start) (items.drop start)
        rwa [List.drop_drop, Nat.add_sub_cancel' startsBefore] at dropped
      by_cases bound : position < items.length
      · refine List.Sublist.trans ?_ front
        rw [List.filterMap_cons, List.getElem?_eq_getElem bound, List.drop_eq_getElem_cons bound]
        exact back.cons_cons _
      · rw [List.filterMap_cons, List.getElem?_eq_none (by omega)]
        refine back.trans (List.Sublist.trans ?_ front)
        rw [← List.drop_drop]
        exact List.drop_sublist 1 _

theorem gather_sublist {positions : List Nat} (ascending : positions.Pairwise (· < ·))
    (items : List α) : (gather positions items).Sublist items :=
  gather_sublist_drop ascending (fun _ _ => Nat.zero_le _) items

theorem gather_zipWith (join : α → β → γ) (positions : List Nat) {lefts : List α}
    {rights : List β} (sameLength : lefts.length = rights.length) :
    gather positions (List.zipWith join lefts rights) =
      List.zipWith join (gather positions lefts) (gather positions rights) := by
  simp only [gather_eq_filterMap]
  induction positions with
  | nil => rfl
  | cons position positions ih =>
      simp only [List.filterMap_cons, List.getElem?_zipWith] at ih ⊢
      by_cases bound : position < lefts.length
      · have rightBound : position < rights.length := by omega
        simp [bound, rightBound, ih]
      · have rightBound : ¬position < rights.length := by omega
        simp [bound, rightBound, ih]

theorem gather_replicate {positions : List Nat} {size : Nat} (item : α)
    (inRange : ∀ position ∈ positions, position < size) :
    gather positions (List.replicate size item) = List.replicate positions.length item := by
  rw [gather_eq_filterMap]
  induction positions with
  | nil => rfl
  | cons position positions ih =>
      have first := inRange position (List.mem_cons_self ..)
      have rest := ih fun other member => inRange other (List.mem_cons_of_mem position member)
      simpa [first, List.replicate_succ] using rest

theorem find?_of_distinct {label : α → String} {items : List α}
    (distinct : (items.map label).Nodup) {item : α} (member : item ∈ items) :
    items.find? (label · == label item) = some item := by
  induction items with
  | nil => simp at member
  | cons first items ih =>
      obtain ⟨notLater, rest⟩ := List.nodup_cons.mp distinct
      rcases List.mem_cons.mp member with rfl | later
      · simp
      · have different : (label first == label item) = false := by
          rw [beq_eq_false_iff_ne]
          exact fun equal => notLater (equal ▸ List.mem_map_of_mem later)
        rw [List.find?_cons, different]
        exact ih rest later

theorem lookup_map (label : α → String) (value : α → β) (items : List α) (name : String) :
    (items.map fun item => (label item, value item)).lookup name =
      (items.find? (label · == name)).map value := by
  induction items with
  | nil => rfl
  | cons item items ih =>
      rw [List.map_cons, List.lookup_cons, List.find?_cons, BEq.comm (a := name)]
      cases label item == name with
      | true => rfl
      | false => exact ih

/-! Steps that may fail, and traversals with them. -/

theorem toOption_eq_some_iff {ε : Type} {result : Except ε α} {value : α} :
    result.toOption = some value ↔ result = .ok value := by
  cases result <;> simp [Except.toOption]

theorem toOption_bind {ε : Type} (first : Except ε α) (next : α → Except ε β) :
    (do next (← first)).toOption = first.toOption.bind fun value => (next value).toOption := by
  cases first <;> rfl

theorem bind_eq_ok_iff {ε : Type} {first : Except ε α} {next : α → Except ε β} {value : β} :
    (do next (← first)) = .ok value ↔ ∃ given, first = .ok given ∧ next given = .ok value := by
  cases first <;> simp [bind, Except.bind]

theorem bind_eq_error_iff {ε : Type} {first : Except ε α} {next : α → Except ε β} {error : ε} :
    (do next (← first)) = .error error ↔
      first = .error error ∨ ∃ given, first = .ok given ∧ next given = .error error := by
  cases first <;> simp [bind, Except.bind]

theorem bind_ok_eq_error_iff {ε : Type} {first : Except ε α} {value : α → β} {error : ε} :
    (do .ok (value (← first)) : Except ε β) = .error error ↔ first = .error error := by
  simp [bind_eq_error_iff]

theorem bind_bind_ok_eq_error_iff {ε : Type} {first : Except ε α} {second : Except ε β}
    {value : α → β → γ} {error : ε} :
    (do .ok (value (← first) (← second)) : Except ε γ) = .error error ↔
      first = .error error ∨ ∃ left, first = .ok left ∧ second = .error error := by
  simp only [bind_eq_error_iff, reduceCtorEq, and_false, exists_false, or_false]

theorem mapError_ok {ε δ : Type} (value : α) (describe : ε → δ) :
    (Except.ok value).mapError describe = .ok value :=
  rfl

theorem mapError_error {ε δ : Type} (cause : ε) (describe : ε → δ) :
    (.error cause : Except ε α).mapError describe = .error (describe cause) :=
  rfl

theorem mapError_eq_error_iff {ε δ : Type} {result : Except ε α} {describe : ε → δ} {error : δ} :
    result.mapError describe = .error error ↔
      ∃ cause, result = .error cause ∧ describe cause = error := by
  cases result <;> simp [mapError_ok, mapError_error]

theorem mapError_eq_ok_iff {ε δ : Type} {result : Except ε α} {describe : ε → δ} {value : α} :
    result.mapError describe = .ok value ↔ result = .ok value := by
  cases result <;> simp [mapError_ok, mapError_error]

theorem ite_error_eq_ok_iff {ε : Type} {refused : Prop} [Decidable refused] {error : ε}
    {result : Except ε α} {value : α} :
    (if refused then .error error else result) = .ok value ↔ ¬refused ∧ result = .ok value := by
  split <;> simp [*]

theorem map_eq_map_iff {visit : α → γ} {wrap : β → γ} {good : α → Prop}
    {change : α → β} {items : List α} {results : List β}
    (each : ∀ item ∈ items, ∀ result, visit item = wrap result ↔ good item ∧ result = change item) :
    items.map visit = results.map wrap ↔
      (∀ item ∈ items, good item) ∧ results = items.map change := by
  induction items generalizing results with
  | nil => simp [eq_comm]
  | cons item items ih =>
      obtain ⟨first, rest⟩ := List.forall_mem_cons.mp each
      cases results with
      | nil => simp
      | cons result results =>
          simp only [List.map_cons, List.cons.injEq, first, ih rest, List.forall_mem_cons]
          exact and_and_and_comm

theorem mapM_eq_some_iff {visit : α → Option β} {items : List α} {results : List β} :
    items.mapM visit = some results ↔ items.map visit = results.map some := by
  induction items generalizing results with
  | nil => cases results <;> simp
  | cons item items ih =>
      cases results with
      | nil => simp [List.mapM_cons, Option.bind_eq_some_iff]
      | cons result results => simp [List.mapM_cons, Option.bind_eq_some_iff, ih]

theorem mapM_eq_none_iff {visit : α → Option β} {items : List α} :
    items.mapM visit = none ↔ ∃ item ∈ items, visit item = none := by
  induction items with
  | nil => simp
  | cons item items ih =>
      cases first : visit item with
      | none => simp [List.mapM_cons, first]
      | some result => cases rest : items.mapM visit <;> simp [List.mapM_cons, first, rest, ← ih]

theorem isSome_mapM_iff {visit : α → Option β} {items : List α} :
    (items.mapM visit).isSome = true ↔ ∀ item ∈ items, (visit item).isSome = true := by
  rw [← Option.not_isNone, Bool.not_eq_true', ← Bool.not_eq_true, Option.isNone_iff_eq_none,
    mapM_eq_none_iff]
  simp [Option.isSome_iff_ne_none]

theorem mapM_eq_ok_iff {ε : Type} {visit : α → Except ε β} {items : List α} {results : List β} :
    items.mapM visit = .ok results ↔ items.map visit = results.map .ok := by
  induction items generalizing results with
  | nil => cases results <;> simp [pure, Except.pure]
  | cons item items ih =>
      cases first : visit item with
      | error error => cases results <;> simp [List.mapM_cons, first, bind, Except.bind]
      | ok result =>
          cases rest : items.mapM visit with
          | error error =>
              cases results <;>
                simp [List.mapM_cons, first, rest, bind, Except.bind, ← ih]
          | ok others =>
              cases results <;>
                simp [List.mapM_cons, first, rest, bind, Except.bind, pure, Except.pure, ← ih]

theorem exists_of_mem_mapM {ε : Type} {visit : α → Except ε β} {items : List α} {results : List β}
    (done : items.mapM visit = .ok results) {result : β} (member : result ∈ results) :
    ∃ item ∈ items, visit item = .ok result := by
  have listed : .ok result ∈ results.map (Except.ok (ε := ε)) := List.mem_map_of_mem member
  rw [← mapM_eq_ok_iff.mp done] at listed
  exact List.mem_map.mp listed

theorem length_of_mapM {visit : α → Option β} {items : List α} {results : List β}
    (done : items.mapM visit = some results) : results.length = items.length := by
  simpa using (congrArg List.length (mapM_eq_some_iff.mp done)).symm

theorem of_mem_zip_of_mapM {visit : α → Option β} {items : List α} {results : List β}
    (done : items.mapM visit = some results) :
    ∀ pair ∈ items.zip results, visit pair.1 = some pair.2 := by
  rw [mapM_eq_some_iff] at done
  intro pair member
  obtain ⟨index, bound, rfl⟩ := List.getElem_of_mem member
  simp only [List.length_zip] at bound
  have same := List.getElem_of_eq done (i := index) (by rw [List.length_map]; omega)
  simpa using same

theorem map_eq_of_mapM {visit : α → Option β} {items : List α} {results : List β} {left : α → γ}
    {right : β → γ} (done : items.mapM visit = some results)
    (same : ∀ item result, visit item = some result → left item = right result) :
    items.map left = results.map right := by
  have sameLength := length_of_mapM done
  have pairs := of_mem_zip_of_mapM done
  apply List.ext_getElem (by simpa using sameLength.symm)
  intro index bound resultBound
  simp only [List.length_map] at bound resultBound
  have member : (items[index], results[index]) ∈ items.zip results := by
    rw [← List.getElem_zip (h := by rw [List.length_zip]; omega)]
    exact List.getElem_mem _
  simpa using same _ _ (pairs _ member)

theorem mapM_option_congr {visit other : α → Option β} {items : List α}
    (same : ∀ item ∈ items, visit item = other item) : items.mapM visit = items.mapM other := by
  induction items with
  | nil => rfl
  | cons item items ih =>
      obtain ⟨first, rest⟩ := List.forall_mem_cons.mp same
      rw [List.mapM_cons, List.mapM_cons, first, ih rest]

theorem toOption_mapM {ε : Type} (visit : α → Except ε β) (items : List α) :
    (items.mapM visit).toOption = items.mapM fun item => (visit item).toOption := by
  induction items with
  | nil => rfl
  | cons item items ih =>
      rw [List.mapM_cons, List.mapM_cons, ← ih]
      cases visit item with
      | error error => rfl
      | ok result => cases items.mapM visit <;> rfl

theorem mapM_option_map (visit : α → Option β) (change : α → β → γ) (items : List α) :
    (items.mapM fun item => (visit item).map (change item)) =
      (items.mapM visit).map (List.zipWith change items) := by
  induction items with
  | nil => rfl
  | cons item items ih =>
      rw [List.mapM_cons, List.mapM_cons, ih]
      cases visit item with
      | none => rfl
      | some result => cases items.mapM visit <;> rfl

/-! Keeping the first element of each class of equal keys. -/

def firstsAfter (key : α → String) (seen : List String) : List α → List α
  | [] => []
  | item :: items =>
    if key item ∈ seen then firstsAfter key seen items
    else item :: firstsAfter key (key item :: seen) items

theorem keepMarked_markFirstsAfter (key : α → String) {marked : Std.HashSet String}
    {seen : List String} (same : ∀ other, other ∈ marked ↔ other ∈ seen) (items : List α) :
    keepMarked (markFirstsAfter marked (items.map key)) items = firstsAfter key seen items := by
  induction items generalizing marked seen with
  | nil => rfl
  | cons item items ih =>
      have inserted : ∀ other, other ∈ marked.insert (key item) ↔ other ∈ key item :: seen := by
        intro other
        rw [Std.HashSet.mem_insert, beq_iff_eq, same, List.mem_cons, eq_comm]
      by_cases known : key item ∈ seen
      · have absorbed : ∀ other, other ∈ marked.insert (key item) ↔ other ∈ seen := by
          intro other
          rw [inserted, List.mem_cons]
          exact ⟨fun either => either.elim (fun equal => equal ▸ known) id, Or.inr⟩
        have contained : marked.contains (key item) = true :=
          Std.HashSet.mem_iff_contains.mp ((same _).mpr known)
        simp [markFirstsAfter, firstsAfter, keepMarked, known, contained, ih absorbed]
      · have missing : marked.contains (key item) = false := by
          rw [Bool.eq_false_iff]
          exact fun contained => known ((same _).mp (Std.HashSet.mem_iff_contains.mpr contained))
        simp [markFirstsAfter, firstsAfter, keepMarked, known, missing, ih inserted]

theorem keepMarked_markFirsts (key : α → String) (items : List α) :
    keepMarked (markFirsts (items.map key)) items = firstsAfter key [] items :=
  keepMarked_markFirstsAfter key (fun other => by simp) items

theorem firstsAfter_congr (key : α → String) {seen known : List String}
    (same : ∀ other, other ∈ seen ↔ other ∈ known) (items : List α) :
    firstsAfter key seen items = firstsAfter key known items := by
  induction items generalizing seen known with
  | nil => rfl
  | cons item items ih =>
      have extended : ∀ other, other ∈ key item :: seen ↔ other ∈ key item :: known := by
        intro other
        simp [same]
      simp [firstsAfter, same, ih same, ih extended]

theorem mem_firstsAfter_keys (key : α → String) (seen : List String) (items : List α)
    (other : String) :
    other ∈ seen ++ (firstsAfter key seen items).map key ↔ other ∈ seen ++ items.map key := by
  induction items generalizing seen with
  | nil => rfl
  | cons item items ih =>
      by_cases known : key item ∈ seen
      · simp only [firstsAfter, known, if_true, ih]
        simp only [List.mem_append, List.map_cons, List.mem_cons]
        exact ⟨fun either => either.imp_right Or.inr,
          fun either => either.elim Or.inl fun more => more.elim (fun equal => Or.inl (equal ▸ known))
            Or.inr⟩
      · have rest := ih (key item :: seen)
        simp only [List.mem_append, List.mem_cons] at rest
        simp only [firstsAfter, known, if_false, List.map_cons, List.mem_append, List.mem_cons]
        rw [← or_assoc, or_comm (a := other ∈ seen), rest, or_comm (a := other = key item), or_assoc]

theorem firstsAfter_append (key : α → String) (seen : List String) (upper lower : List α) :
    firstsAfter key seen (upper ++ lower) =
      firstsAfter key seen upper ++ firstsAfter key (seen ++ upper.map key) lower := by
  induction upper generalizing seen with
  | nil => simp [firstsAfter]
  | cons item upper ih =>
      by_cases known : key item ∈ seen
      · simp only [List.cons_append, firstsAfter, known, if_true, ih]
        congr 1
        apply firstsAfter_congr
        intro other
        simp only [List.mem_append, List.map_cons, List.mem_cons]
        exact ⟨fun either => either.imp_right Or.inr,
          fun either => either.elim Or.inl fun more => more.elim (fun equal => Or.inl (equal ▸ known))
            Or.inr⟩
      · simp only [List.cons_append, firstsAfter, known, if_false, ih]
        congr 2
        apply firstsAfter_congr
        intro other
        simp only [List.mem_append, List.map_cons, List.mem_cons]
        rw [or_left_comm]

theorem firstsAfter_nodup (key : α → String) (seen : List String) (items : List α) :
    ((firstsAfter key seen items).map key).Nodup ∧
      ∀ item ∈ firstsAfter key seen items, key item ∉ seen := by
  induction items generalizing seen with
  | nil => simp [firstsAfter]
  | cons item items ih =>
      by_cases known : key item ∈ seen
      · simpa [firstsAfter, known] using ih seen
      · obtain ⟨distinct, fresh⟩ := ih (key item :: seen)
        simp only [firstsAfter, known, if_false, List.map_cons, List.nodup_cons, List.mem_map,
          not_exists, not_and, List.forall_mem_cons, not_false_eq_true, true_and]
        exact ⟨⟨fun other member equal => fresh other member (by simp [equal]), distinct⟩,
          fun other member seenBefore => fresh other member (List.mem_cons_of_mem _ seenBefore)⟩

theorem firstsAfter_of_nodup (key : α → String) {seen : List String} {items : List α}
    (distinct : (items.map key).Nodup) (fresh : ∀ item ∈ items, key item ∉ seen) :
    firstsAfter key seen items = items := by
  induction items generalizing seen with
  | nil => rfl
  | cons item items ih =>
      obtain ⟨notLater, rest⟩ := List.nodup_cons.mp distinct
      have unseen := fresh item (List.mem_cons_self ..)
      have later : ∀ other ∈ items, key other ∉ key item :: seen := by
        intro other member
        simp only [List.mem_cons, not_or]
        exact ⟨fun equal => notLater (equal ▸ List.mem_map_of_mem member),
          fresh other (List.mem_cons_of_mem item member)⟩
      simp [firstsAfter, unseen, ih rest later]

/-- The first elements of an appended list may be found after those of its front. -/
theorem firstsAfter_firstsAfter_append (key : α → String) (upper lower : List α) :
    firstsAfter key [] (firstsAfter key [] upper ++ lower) =
      firstsAfter key [] (upper ++ lower) := by
  obtain ⟨distinct, _⟩ := firstsAfter_nodup key [] upper
  rw [firstsAfter_append, firstsAfter_append, firstsAfter_of_nodup key distinct (by simp)]
  congr 1
  apply firstsAfter_congr
  simpa using mem_firstsAfter_keys key [] upper

end TableSieve
