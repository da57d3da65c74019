import TableSieve.Proofs.Rows
import TableSieve.Table.Sampling

/-!
Random choices: however the words of the generator fall, chosen positions are different and in
range. With any sampler of which this is true, a sample of a table is made of as many of its rows as
were asked for, in their order.
-/

namespace TableSieve.Random

theorem Choice.append {bound count position : Nat} {positions : List Nat}
    (choice : Choice bound count positions) (absent : position ∉ positions)
    (small : position < bound) : Choice bound (count + 1) (positions ++ [position]) := by
  refine ⟨?_, ?_, by simp [choice.length]⟩
  · rw [List.nodup_append]
    refine ⟨choice.distinct, by simp, ?_⟩
    intro other otherMember added addedMember equal
    rw [List.mem_singleton.mp addedMember] at equal
    exact absent (equal ▸ otherMember)
  · exact List.forall_mem_append.mpr ⟨choice.inRange, List.forall_mem_singleton.mpr small⟩

theorem Choice.replace {last count : Nat} {positions : List Nat}
    (choice : Choice last count positions) (position : Nat) :
    Choice (last + 1) count
      (positions.map fun other => if other = position then last else other) := by
  refine ⟨?_, ?_, by simp [choice.length]⟩
  · rw [List.nodup_iff_pairwise_ne, List.pairwise_map]
    apply (List.nodup_iff_pairwise_ne.mp choice.distinct).imp_of_mem
    intro left right leftMember rightMember different equal
    have leftSmall := choice.inRange left leftMember
    have rightSmall := choice.inRange right rightMember
    split at equal <;> split at equal <;> omega
  · intro other otherMember
    obtain ⟨original, originalMember, rfl⟩ := List.mem_map.mp otherMember
    have small := choice.inRange original originalMember
    split <;> omega

theorem extendChoice_choice {last count : Nat} {chosen : List Nat}
    (choice : Choice last count chosen) (generator : Generator) :
    Choice (last + 1) (count + 1) (extendChoice chosen last generator).1 := by
  have drawn := generator.below_lt (Nat.succ_pos last)
  unfold extendChoice
  generalize generator.below (last + 1) = draw at drawn ⊢
  obtain ⟨position, generator⟩ := draw
  simp only at drawn ⊢
  split
  · rename_i taken
    have small := choice.inRange position (List.contains_iff_mem.mp taken)
    refine (choice.replace position).append ?_ drawn
    intro member
    obtain ⟨original, _, same⟩ := List.mem_map.mp member
    split at same <;> omega
  · rename_i fresh
    have wider : Choice (last + 1) count chosen :=
      ⟨choice.distinct, fun other member => Nat.lt_succ_of_lt (choice.inRange other member),
        choice.length⟩
    exact wider.append (fun member => fresh (List.contains_iff_mem.mpr member)) drawn

theorem chooseOneByOne_choice {start count : Nat} {chosen : List Nat} (more : Nat)
    (choice : Choice start count chosen) (generator : Generator) :
    Choice (start + more) (count + more)
      (chooseOneByOne chosen generator (List.range' start more)).1 := by
  induction more generalizing start count chosen generator with
  | zero => simpa [chooseOneByOne] using choice
  | succ more ih =>
      simp only [List.range'_succ, chooseOneByOne]
      have next := ih (extendChoice_choice choice generator)
        (extendChoice chosen start generator).2
      rw [Nat.add_right_comm start, Nat.add_right_comm count] at next
      exact next

theorem shuffleFront_perm (positions : Array Nat) (generator : Generator) (places : List Nat) :
    (shuffleFront positions generator places).1.toList.Perm positions.toList := by
  induction places generalizing positions generator with
  | nil => exact .refl _
  | cons place places ih =>
      simp only [shuffleFront]
      refine (ih _ _).trans ?_
      rw [Array.swapIfInBounds_def]
      split
      · split
        · exact Array.perm_iff_toList_perm.mp (Array.swap_perm _ _)
        · exact .refl _
      · exact .refl _

theorem Choice.nil (bound : Nat) : Choice bound 0 [] :=
  ⟨List.nodup_nil, List.forall_mem_nil _, rfl⟩

theorem chooseByShuffling_choice {size count : Nat} (enough : count ≤ size)
    (generator : Generator) : Choice size count (chooseByShuffling size count generator).1 := by
  have shuffled := shuffleFront_perm (Array.range size) generator (List.range count)
  rw [Array.toList_range] at shuffled
  have front := List.take_sublist count
    (shuffleFront (Array.range size) generator (List.range count)).1.toList
  refine ⟨(shuffled.symm.nodup List.nodup_range).sublist front, ?_, ?_⟩
  · intro position member
    exact List.mem_range.mp (shuffled.subset (front.subset member))
  · rw [chooseByShuffling, List.length_take, shuffled.length_eq, List.length_range]
    omega

/-- What rejection chooses, if it does not give up, is a choice whatever was chosen before. -/
theorem chooseByRejection?_choice {width : Width} {size count : Nat} (positive : 0 < size)
    {chosen : List Nat} (choice : Choice size chosen.length chosen) {generator : Generator}
    {draws : Nat} {result : List Nat × Generator}
    (given : chooseByRejection? width size count chosen generator draws = some result) :
    Choice size count result.1 := by
  induction draws generalizing chosen generator with
  | zero => cases given
  | succ draws ih =>
      rw [chooseByRejection?] at given
      split at given
      · rename_i full
        cases given
        exact full ▸ choice
      · split at given
        · exact ih choice given
        · rename_i position rest drawn
          have small : position < size :=
            Generator.unbiased?_lt positive (congrArg Prod.fst drawn)
          refine ih ?_ given
          split
          · exact choice
          · rename_i fresh
            rw [List.length_append]
            exact choice.append (fun member => fresh (List.contains_iff_mem.mpr member)) small

theorem size_pos_of_rejection {size count : Nat} {width : Width} (enough : count ≤ size)
    (chosen : methodFor size count = .rejection width) : 0 < size := by
  rcases Nat.eq_zero_or_pos size with rfl | positive
  · obtain rfl := Nat.le_zero.mp enough
    cases chosen
  · exact positive

theorem choose_choice {size count : Nat} (enough : count ≤ size) (generator : Generator) :
    Choice size count (choose size count generator).1 := by
  have shuffled := chooseByShuffling_choice enough generator
  unfold choose
  split
  · have all := chooseOneByOne_choice count (Choice.nil (size - count)) generator
    rwa [Nat.sub_add_cancel enough, Nat.zero_add] at all
  · exact shuffled
  · rename_i width chosen
    have positive := size_pos_of_rejection enough chosen
    have none : Choice size ([] : List Nat).length [] := Choice.nil size
    split
    · rename_i given
      exact chooseByRejection?_choice positive none given
    · exact shuffled

theorem sampler_lawful : sampler.Lawful :=
  fun _ _ enough seed => choose_choice enough (.ofSeed seed)

end TableSieve.Random

namespace TableSieve.Table

open TableSieve.Random

structure Selected (table : Table) (count : Nat) (selection : Table) (positions : List Nat) :
    Prop where
  ascending : positions.Pairwise (· < ·)
  inRange : ∀ position ∈ positions, position < table.size
  length : positions.length = count
  taken : selection = table.take positions

theorem Selected.size_eq {table selection : Table} {count : Nat} {positions : List Nat}
    (selected : Selected table count selection positions) : selection.size = count := by
  rw [selected.taken]
  exact selected.length

theorem Selected.rows_sublist {table selection : Table} {count : Nat} {positions : List Nat}
    (selected : Selected table count selection positions) (wellFormed : table.WellFormed) :
    selection.rows.Sublist table.rows := by
  rw [selected.taken, wellFormed.rows_take selected.inRange]
  exact gather_sublist selected.ascending table.rows

theorem WellFormed.take_range {table : Table} (wellFormed : table.WellFormed) :
    table.take (List.range table.size) = table := by
  have inRange : ∀ position ∈ List.range table.size, position < table.size :=
    fun _ => List.mem_range.mp
  apply (wellFormed.take inRange).eq_of_rows wellFormed (schema_take _)
  rw [wellFormed.rows_take inRange, ← wellFormed.length_rows, gather_range]

/-- A sample consists of exactly as many rows as were asked for, if there are as many. -/
theorem WellFormed.sample_selected {table : Table} (wellFormed : table.WellFormed)
    {sampler : Sampler} (lawful : sampler.Lawful) {count : Nat} (enough : count ≤ table.size)
    (seed : UInt64) :
    ∃ positions, Selected table count (table.sample sampler count seed) positions := by
  unfold sample
  split
  · have equal : count = table.size := by omega
    refine ⟨List.range table.size, List.pairwise_lt_range, fun _ => List.mem_range.mp, ?_, ?_⟩
    · simp [equal]
    · exact wellFormed.take_range.symm
  · have choice := lawful table.size count enough seed
    have trans : ∀ left middle right : Nat, decide (left ≤ middle) → decide (middle ≤ right) →
        decide (left ≤ right) := by
      simpa using fun _ _ _ => Nat.le_trans
    have total : ∀ left right : Nat, decide (left ≤ right) || decide (right ≤ left) := by
      simpa using Nat.le_total
    have sorted := List.pairwise_mergeSort trans total (sampler table.size count seed)
    have perm := List.mergeSort_perm (sampler table.size count seed)
      (fun left right : Nat => decide (left ≤ right))
    refine ⟨_, ?_, ?_, ?_, rfl⟩
    · have different := perm.symm.nodup choice.distinct
      exact (sorted.and different).imp fun both =>
        Nat.lt_of_le_of_ne (of_decide_eq_true both.1) both.2
    · exact fun position member => choice.inRange position (perm.subset member)
    · rw [perm.length_eq, choice.length]

end TableSieve.Table
