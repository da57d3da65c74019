import TableSieve.Proofs.IntegerRounding
import TableSieve.Proofs.RowEquality

/-!
The order of cells. Texts and points in time are ordered by one key each. Numbers are not: two
integers compare by their values and any other pair by its floats, so the order is consistent only
as long as no float stands beside two integers that round to it.
-/

namespace TableSieve

open TableSieve.Number

/-! Orders that are chained. -/

theorem compare_chain {α : Type} [Ord α] [Std.TransOrd α] {x y z : α}
    (first : Ord.compare x y ≠ .gt) (second : Ord.compare y z ≠ .gt) :
    Ord.compare x z =
      if Ord.compare x y = .lt ∨ Ord.compare y z = .lt then .lt else .eq := by
  cases left : Ord.compare x y with
  | lt =>
      cases right : Ord.compare y z with
      | lt => simpa using Std.TransCmp.lt_trans left right
      | eq => simpa using Std.TransCmp.lt_of_lt_of_eq left right
      | gt => exact absurd right second
  | eq =>
      cases right : Ord.compare y z with
      | lt => simpa using Std.TransCmp.lt_of_eq_of_lt left right
      | eq => simpa using Std.TransCmp.eq_trans left right
      | gt => exact absurd right second
  | gt => exact absurd left first

theorem compare_eq_chain_iff {x y : Int} {less : Prop} [Decidable less] :
    Ord.compare x y = (if less then .lt else .eq) ↔ if less then x < y else x = y := by
  split
  · exact compare_lt_iff_lt
  · exact compare_eq_iff_eq

namespace Cell

def integer? : Cell → Option Int64
  | .int value => some value
  | _ => none

theorem integer?_eq_some_iff {cell : Cell} {value : Int64} :
    cell.integer? = some value ↔ cell = .int value := by
  cases cell <;> simp [integer?]

theorem number_eq_of_integer {cell : Cell} {value : Int64} {number : Float}
    (integer : cell.integer? = some value) (found : cell.number? = some number) :
    number = ofInt value.toInt := by
  rw [integer?_eq_some_iff.mp integer, number?, Option.some.injEq] at found
  exact found.symm

/-! The three ways in which cells compare. -/

def numberOrder (left right : Cell) (leftNumber rightNumber : Float) : Ordering :=
  match left.integer?, right.integer? with
  | some leftValue, some rightValue => Ord.compare leftValue.toInt rightValue.toInt
  | _, _ => Ord.compare (rank leftNumber) (rank rightNumber)

inductive Compares : Cell → Cell → Ordering → Prop
  | texts (left right : String) : Compares (.text left) (.text right) (Ord.compare left right)
  | moments {left right : Cell} {leftMoment rightMoment : Calendar.DateTime}
      (leftFound : left.moment? = some leftMoment) (rightFound : right.moment? = some rightMoment) :
      Compares left right (Ord.compare leftMoment.rank rightMoment.rank)
  | numbers {left right : Cell} {leftNumber rightNumber : Float}
      (leftFound : left.number? = some leftNumber) (rightFound : right.number? = some rightNumber) :
      Compares left right (numberOrder left right leftNumber rightNumber)

theorem numberOrder_of_not_ints {left right : Cell}
    (notInts : ∀ leftValue rightValue, left = .int leftValue → right = .int rightValue → False)
    (leftNumber rightNumber : Float) :
    numberOrder left right leftNumber rightNumber =
      Ord.compare (rank leftNumber) (rank rightNumber) := by
  unfold numberOrder
  split
  · rename_i leftInteger rightInteger
    exact (notInts _ _ (integer?_eq_some_iff.mp leftInteger)
      (integer?_eq_some_iff.mp rightInteger)).elim
  · rfl

theorem compare_eq_some_iff {left right : Cell} {order : Ordering} :
    left.compare right = some order ↔ Compares left right order := by
  constructor
  · intro compared
    unfold compare at compared
    split at compared
    · exact Option.some.inj compared ▸ .numbers rfl rfl
    · exact Option.some.inj compared ▸ .texts _ _
    · rename_i notInts _
      unfold compareNumbers compareMoments at compared
      split at compared
      · rename_i leftFound rightFound
        rw [Option.some_or, Option.some.injEq, ← numberOrder_of_not_ints notInts] at compared
        exact compared ▸ .numbers leftFound rightFound
      · split at compared
        · rename_i leftFound rightFound
          exact Option.some.inj compared ▸ .moments leftFound rightFound
        · cases compared
  · rintro (_ | ⟨leftFound, rightFound⟩ | ⟨leftFound, rightFound⟩)
    · rfl
    · unfold compare
      split
      · cases leftFound
      · cases leftFound
      · have noNumber : left.number? = none := by
          cases left <;> simp_all [number?, moment?]
        simp [compareNumbers, compareMoments, noNumber, leftFound, rightFound]
    · unfold compare
      split
      · rfl
      · cases leftFound
      · rename_i notInts _
        simp [compareNumbers, leftFound, rightFound, numberOrder_of_not_ints notInts]

theorem numberOrder_swap (left right : Cell) (leftNumber rightNumber : Float) :
    numberOrder right left rightNumber leftNumber =
      (numberOrder left right leftNumber rightNumber).swap := by
  unfold numberOrder
  cases left.integer? <;> cases right.integer? <;> exact Std.OrientedOrd.eq_swap

theorem compare_swap {left right : Cell} {order : Ordering}
    (compared : left.compare right = some order) : right.compare left = some order.swap := by
  rw [compare_eq_some_iff] at compared ⊢
  cases compared with
  | texts left right => exact Std.OrientedOrd.eq_swap (a := right) (b := left) ▸ .texts right left
  | moments leftFound rightFound =>
      rw [← Std.OrientedOrd.eq_swap]
      exact .moments rightFound leftFound
  | numbers leftFound rightFound =>
      rw [← numberOrder_swap]
      exact .numbers rightFound leftFound

/-! Integers that round together. -/

theorem eq_of_rank {number other : Float} (same : rank number = rank other)
    (notZero : rank number ≠ 0) : number = other := by
  have bits := (rank_eq_iff_bits number other).mp same
  rw [if_neg notZero, if_neg (same ▸ notZero)] at bits
  exact Float.toBits_inj.mp (UInt64.toNat_inj.mp bits)

def RoundTogether (first second other : Cell) : Prop :=
  ∃ value otherValue number, first = .int value ∧ second = .int otherValue ∧
    other = .float number ∧ value ≠ otherValue ∧ ofInt value.toInt = number ∧
      ofInt otherValue.toInt = number

theorem not_isExact_of_rank {value other : Int} (different : value ≠ other)
    (same : rank (ofInt value) = rank (ofInt other)) : ¬IsExact value :=
  fun exact => different (eq_of_rank_ofInt (.inl exact) same)

theorem roundTogether_iff {first second other : Cell} {number : Float}
    (found : other.number? = some number) :
    RoundTogether first second other ↔
      other.integer? = none ∧ ∃ value otherValue, first.integer? = some value ∧
        second.integer? = some otherValue ∧ value.toInt ≠ otherValue.toInt ∧
          rank (ofInt value.toInt) = rank number ∧
            rank (ofInt otherValue.toInt) = rank number := by
  constructor
  · rintro ⟨value, otherValue, _, rfl, rfl, rfl, different, rfl, same⟩
    have present := isNaN_ofInt value.toInt
    simp only [number?, present, Bool.false_eq_true, if_false, Option.some.injEq] at found
    subst found
    exact ⟨rfl, value, otherValue, rfl, rfl, fun equal => different (Int64.toInt_inj.mp equal), rfl,
      by rw [same]⟩
  · rintro ⟨notInteger, value, otherValue, firstInteger, secondInteger, different, rounds,
      otherRounds⟩
    have large := not_isExact_of_rank different (rounds.trans otherRounds.symm)
    have apart (small : Int) (exact : IsExact small) (same : rank number = rank (ofInt small)) :
        False :=
      large (eq_of_rank_ofInt (.inr exact) (rounds.trans same) ▸ exact)
    cases other with
    | float float =>
        simp only [number?] at found
        split at found
        · cases found
        · obtain rfl := Option.some.inj found
          have notZero : rank float ≠ 0 := fun zero => apart 0 (by decide) (zero.trans (by decide))
          exact ⟨value, otherValue, float, integer?_eq_some_iff.mp firstInteger,
            integer?_eq_some_iff.mp secondInteger, rfl,
            fun equal => different (congrArg Int64.toInt equal),
            eq_of_rank rounds (rounds ▸ notZero), eq_of_rank otherRounds (otherRounds ▸ notZero)⟩
    | bool flag =>
        obtain rfl := Option.some.inj found
        cases flag with
        | false => exact (apart 0 (by decide) (by decide)).elim
        | true => exact (apart 1 (by decide) (by decide)).elim
    | int _ => cases notInteger
    | _ => cases found

/-- A float beside two different integers that round to it. -/
def Blurs (left between right : Cell) : Prop :=
  RoundTogether left between right ∨ RoundTogether between right left ∨
    RoundTogether left right between

theorem number?_of_roundTogether {first second other : Cell}
    (together : RoundTogether first second other) :
    first.number?.isSome ∧ second.number?.isSome ∧ other.number?.isSome := by
  obtain ⟨value, otherValue, _, rfl, rfl, rfl, _, rfl, _⟩ := together
  simp [number?, isNaN_ofInt]

theorem number?_of_blurs {left between right : Cell} (blurs : Blurs left between right) :
    between.number?.isSome := by
  rcases blurs with together | together | together
  · exact (number?_of_roundTogether together).2.1
  · exact (number?_of_roundTogether together).1
  · exact (number?_of_roundTogether together).2.2

theorem numberOrder_chain_iff {left between right : Cell} {x y z : Float}
    (leftFound : left.number? = some x) (betweenFound : between.number? = some y)
    (rightFound : right.number? = some z) (first : numberOrder left between x y ≠ .gt)
    (second : numberOrder between right y z ≠ .gt) :
    numberOrder left right x z =
        (if numberOrder left between x y = .lt ∨ numberOrder between right y z = .lt then .lt
          else .eq) ↔
      ¬Blurs left between right := by
  have mono (value other : Int64) : value.toInt ≤ other.toInt →
      rank (ofInt value.toInt) ≤ rank (ofInt other.toInt) := rank_ofInt_mono
  unfold Blurs
  rw [roundTogether_iff leftFound, roundTogether_iff betweenFound, roundTogether_iff rightFound]
  unfold numberOrder at *
  -- Only two integers and a float are ordered by more than one key.
  cases leftInteger : left.integer? <;> cases betweenInteger : between.integer? <;>
    cases rightInteger : right.integer? <;>
    simp only [leftInteger, betweenInteger, rightInteger, compare_le_iff_le, compare_lt_iff_lt,
      compare_eq_chain_iff] at first second ⊢ <;>
    simp only [reduceCtorEq, Option.some.injEq, false_and, and_false, exists_false, or_false,
      false_or, true_and, not_false_eq_true, iff_true, exists_and_left, exists_eq_left']
  · split <;> omega
  · split <;> omega
  · split <;> omega
  · rename_i value other
    obtain rfl := number_eq_of_integer betweenInteger betweenFound
    obtain rfl := number_eq_of_integer rightInteger rightFound
    have upward := mono value other
    have downward := mono other value
    split <;> omega
  · split <;> omega
  · rename_i value other
    obtain rfl := number_eq_of_integer leftInteger leftFound
    obtain rfl := number_eq_of_integer rightInteger rightFound
    have upward := mono value other
    have downward := mono other value
    split <;> omega
  · rename_i value other
    obtain rfl := number_eq_of_integer leftInteger leftFound
    obtain rfl := number_eq_of_integer betweenInteger betweenFound
    have upward := mono value other
    have downward := mono other value
    split <;> omega
  · split <;> omega

theorem compare_chain_iff {left between right : Cell} {first second : Ordering}
    (compared : left.compare between = some first) (compares : between.compare right = some second)
    (upward : first ≠ .gt) (onward : second ≠ .gt) :
    left.compare right = some (if first = .lt ∨ second = .lt then .lt else .eq) ↔
      ¬Blurs left between right := by
  rw [compare_eq_some_iff] at compared compares
  have sharp (noNumber : between.number? = none) : ¬Blurs left between right := by
    intro blurs
    have found := number?_of_blurs blurs
    simp [noNumber] at found
  cases compared with
  | texts leftText betweenText =>
      cases compares with
      | texts _ rightText =>
          rw [← compare_chain upward onward]
          exact iff_of_true rfl (sharp rfl)
      | moments found _ => cases found
      | numbers found _ => cases found
  | @moments _ _ leftMoment betweenMoment leftFound betweenFound =>
      cases compares with
      | texts => cases betweenFound
      | @moments _ _ sameMoment rightMoment sameFound rightFound =>
          obtain rfl := Option.some.inj (betweenFound.symm.trans sameFound)
          rw [← compare_chain upward onward, compare_eq_some_iff]
          refine iff_of_true (.moments leftFound rightFound) (sharp ?_)
          cases between <;> simp_all [number?, moment?]
      | numbers found _ => cases between <;> simp_all [number?, moment?]
  | @numbers _ _ leftNumber betweenNumber leftFound betweenFound =>
      cases compares with
      | texts => cases betweenFound
      | moments found _ => cases between <;> simp_all [number?, moment?]
      | @numbers _ _ sameNumber rightNumber sameFound rightFound =>
          obtain rfl := Option.some.inj (betweenFound.symm.trans sameFound)
          have ordered := compare_eq_some_iff.mpr (.numbers leftFound rightFound)
          rw [ordered, Option.some.injEq]
          exact numberOrder_chain_iff leftFound betweenFound rightFound upward onward

theorem not_isExact_of_roundTogether {first second other : Cell}
    (together : RoundTogether first second other) {value : Int64}
    (member : .int value = first ∨ .int value = second ∨ .int value = other) :
    ¬IsExact value.toInt := by
  obtain ⟨one, two, _, rfl, rfl, rfl, different, rfl, same⟩ := together
  have apart : one.toInt ≠ two.toInt := fun equal => different (Int64.toInt_inj.mp equal)
  have ranks : rank (ofInt one.toInt) = rank (ofInt two.toInt) := by rw [same]
  rcases member with isFirst | isSecond | isOther
  · exact Cell.int.inj isFirst ▸ not_isExact_of_rank apart ranks
  · exact Cell.int.inj isSecond ▸ not_isExact_of_rank apart.symm ranks.symm
  · cases isOther

/-- The order of cells reverses when they are swapped, and it is chained as an order is, exactly as
long as no float stands beside two different integers that round to it. Those have more than 53
bits. -/
theorem compare_orders_unless_blurred :
    (∀ (left right : Cell) (order : Ordering), left.compare right = some order →
        right.compare left = some order.swap) ∧
      (∀ (left between right : Cell) (first second : Ordering), left.compare between = some first →
        between.compare right = some second → first ≠ .gt → second ≠ .gt →
          (left.compare right = some (if first = .lt ∨ second = .lt then .lt else .eq) ↔
            ¬Blurs left between right)) ∧
      ∀ left between right : Cell, Blurs left between right → ∀ value : Int64,
        .int value ∈ [left, between, right] → 2 ^ 53 ≤ value.toInt.natAbs := by
  refine ⟨fun _ _ _ => compare_swap, fun _ _ _ _ _ => compare_chain_iff, ?_⟩
  intro left between right blurs value member
  simp only [List.mem_cons, List.not_mem_nil, or_false] at member
  have inexact : ¬IsExact value.toInt := by
    rcases blurs with together | together | together
    · exact not_isExact_of_roundTogether together member
    · exact not_isExact_of_roundTogether together (by tauto)
    · exact not_isExact_of_roundTogether together (by tauto)
  have limit : 2 * mantissaSpan = 2 ^ 53 := rfl
  unfold IsExact at inexact
  omega

theorem compare_orders_unless_blurred_near :
    (int 9007199254740992).compare (int 9007199254740993) = some .lt ∧
      (int 9007199254740993).compare (float (ofInt 9007199254740994)) = some .lt ∧
      (int 9007199254740992).compare (float (ofInt 9007199254740994)) = some .lt ∧
      ¬Blurs (int 9007199254740992) (int 9007199254740993) (float (ofInt 9007199254740994)) := by
  have first : (int 9007199254740992).compare (int 9007199254740993) = some .lt := by decide
  have second : (int 9007199254740993).compare (float (ofInt 9007199254740994)) = some .lt := by
    decide
  have both : (int 9007199254740992).compare (float (ofInt 9007199254740994)) = some .lt := by
    decide
  have sharp := (compare_orders_unless_blurred.2.1 _ _ _ _ _ first second (by decide)
    (by decide)).mp both
  exact ⟨first, second, both, sharp⟩

/-- Two integers equal the float to which both round, but not each other. -/
theorem not_compare_orders :
    ¬((∀ (left right : Cell) (order : Ordering), left.compare right = some order →
        right.compare left = some order.swap) ∧
      ∀ (left between right : Cell) (first second : Ordering),
        left.compare between = some first → between.compare right = some second →
          first ≠ .gt → second ≠ .gt →
            left.compare right = some (if first = .lt ∨ second = .lt then .lt else .eq)) := by
  rintro ⟨_, chained⟩
  have equal := chained (.int 9007199254740992) (.float (ofInt 9007199254740992))
    (.int 9007199254740993) .eq .eq (by decide) (by decide) (by decide) (by decide)
  have less : (int 9007199254740992).compare (.int 9007199254740993) = some .lt := by decide
  rw [less] at equal
  cases equal

end Cell

end TableSieve
