import Mathlib.Data.List.Zip
import TableSieve.Proofs.RowValues

/-!
Formulas rearranged. The operands of sums and the predicates joined by `&` or `|` may change places
anywhere in a formula, and groups may come and go around its predicates. Evaluation may then meet
another issue first, but it ends early for both formulas or for neither, and it marks the same rows.
-/

namespace TableSieve

namespace Number

open Float.Model

theorem unpacked_add_comm (format : Format) (left right : UnpackedFloat) :
    UnpackedFloat.add format left right = UnpackedFloat.add format right left := by
  cases left with
  | finite sign mantissa exponent positive =>
      cases right with
      | finite otherSign otherMantissa otherExponent otherPositive =>
          dsimp only [UnpackedFloat.add]
          rw [Int.min_comm exponent, Int.add_comm (sign.apply _)]
      | _ => rfl
  | infinity sign | zero sign =>
      cases right with
      | infinity otherSign | zero otherSign => cases sign <;> cases otherSign <;> rfl
      | _ => rfl
  | notANumber => cases right <;> rfl

theorem float_add_comm (left right : Float) : left + right = right + left :=
  congrArg (fun sum => Float.ofModel (pack sum))
    (unpacked_add_comm Format.binary64 left.toModel.unpack right.toModel.unpack)

end Number

theorem Cell.add?_comm (left right : Cell) : left.add? right = right.add? left := by
  unfold add?
  rw [Bool.or_comm]
  split
  · rfl
  · cases left <;> cases right <;>
      simp [shift?, Int.add_comm, Number.float_add_comm]

namespace Formula

/-- Some sums, conjunctions and disjunctions of the formula have their sides exchanged. -/
inductive Swapped : Formula → Formula → Prop
  | refl (formula : Formula) : Swapped formula formula
  | trans {first second third : Formula} (front : Swapped first second)
      (back : Swapped second third) : Swapped first third
  | sum_comm (left right : Formula) : Swapped (.sum left right) (.sum right left)
  | both_comm (left right : Formula) : Swapped (.both left right) (.both right left)
  | either_comm (left right : Formula) : Swapped (.either left right) (.either right left)
  | sum {left right newLeft newRight : Formula} (lefts : Swapped left newLeft)
      (rights : Swapped right newRight) : Swapped (.sum left right) (.sum newLeft newRight)
  | compare {left right newLeft newRight : Formula} (comparison : Comparison)
      (lefts : Swapped left newLeft) (rights : Swapped right newRight) :
      Swapped (.compare left comparison right) (.compare newLeft comparison newRight)
  | nullTest {operand newOperand : Formula} (negated : Bool)
      (operands : Swapped operand newOperand) :
      Swapped (.nullTest operand negated) (.nullTest newOperand negated)
  | both {left right newLeft newRight : Formula} (lefts : Swapped left newLeft)
      (rights : Swapped right newRight) : Swapped (.both left right) (.both newLeft newRight)
  | either {left right newLeft newRight : Formula} (lefts : Swapped left newLeft)
      (rights : Swapped right newRight) : Swapped (.either left right) (.either newLeft newRight)
  | group {inner newInner : Formula} (inners : Swapped inner newInner) :
      Swapped (.group inner) (.group newInner)

/-- Sides are exchanged anywhere, and groups come and go around the formula and the predicates that
it joins, but not inside an operand. -/
inductive Rearranged : Formula → Formula → Prop
  | swapped {formula other : Formula} (sides : Swapped formula other) : Rearranged formula other
  | trans {first second third : Formula} (front : Rearranged first second)
      (back : Rearranged second third) : Rearranged first third
  | wrap (formula : Formula) : Rearranged formula (.group formula)
  | unwrap (formula : Formula) : Rearranged (.group formula) formula
  | both {left right newLeft newRight : Formula} (lefts : Rearranged left newLeft)
      (rights : Rearranged right newRight) :
      Rearranged (.both left right) (.both newLeft newRight)
  | either {left right newLeft newRight : Formula} (lefts : Rearranged left newLeft)
      (rights : Rearranged right newRight) :
      Rearranged (.either left right) (.either newLeft newRight)
  | group {inner newInner : Formula} (inners : Rearranged inner newInner) :
      Rearranged (.group inner) (.group newInner)

/-! The results over a table, where the issue that ended an evaluation early is left out. -/

variable {table : Table}

def cells? (table : Table) (formula : Formula) : Option (List Cell) :=
  (cellsOf table formula).toOption

def marks? (table : Table) (formula : Formula) : Option (List Bool) :=
  (marksOf table formula).toOption

theorem cells?_sum (left right : Formula) :
    cells? table (.sum left right) =
      (cells? table left).bind fun lefts => (cells? table right).bind fun rights =>
        (lefts.zip rights).mapM fun pair => pair.1.add? pair.2 := by
  simp only [cells?, cellsOf_sum, toOption_bind]
  congr 2
  funext lefts
  congr 2
  funext rights
  cases (lefts.zip rights).mapM fun pair => pair.1.add? pair.2 <;> rfl

theorem cells?_predicate {formula : Formula} (predicate : formula.isPredicate = true) :
    cells? table formula = none := by
  rw [cells?, cellsOf_predicate predicate]
  rfl

theorem marks?_bare {formula : Formula} (bare : formula.isPredicate = false) :
    marks? table formula =
      (cells? table formula).bind fun cells => some (cells.map Cell.isTruthy) := by
  rw [marks?, marksOf_bare bare, toOption_bind]
  rfl

theorem marks?_compare (left : Formula) (comparison : Comparison) (right : Formula) :
    marks? table (.compare left comparison right) =
      (cells? table left).bind fun lefts => (cells? table right).bind fun rights =>
        some (List.zipWith (fun cell other => cell.comparesAs comparison other) lefts rights) := by
  simp only [marks?, marksOf_compare, toOption_bind]
  rfl

theorem marks?_nullTest (operand : Formula) (negated : Bool) :
    marks? table (.nullTest operand negated) =
      (cells? table operand).bind fun cells =>
        some (cells.map fun cell => cell.isMissing != negated) := by
  simp only [marks?, marksOf_nullTest, toOption_bind]
  rfl

theorem marks?_both (left right : Formula) :
    marks? table (.both left right) =
      (marks? table left).bind fun lefts => (marks? table right).bind fun rights =>
        some (List.zipWith (· && ·) lefts rights) := by
  simp only [marks?, marksOf_both, toOption_bind]
  rfl

theorem marks?_either (left right : Formula) :
    marks? table (.either left right) =
      (marks? table left).bind fun lefts => (marks? table right).bind fun rights =>
        some (List.zipWith (· || ·) lefts rights) := by
  simp only [marks?, marksOf_either, toOption_bind]
  rfl

theorem mapM_add?_comm (lefts rights : List Cell) :
    ((lefts.zip rights).mapM fun pair => pair.1.add? pair.2) =
      (rights.zip lefts).mapM fun pair => pair.1.add? pair.2 := by
  rw [← List.zip_swap rights lefts, List.mapM_map]
  exact mapM_option_congr fun pair _ => Cell.add?_comm pair.2 pair.1

theorem cells?_sum_comm (left right : Formula) :
    cells? table (.sum left right) = cells? table (.sum right left) := by
  rw [cells?_sum, cells?_sum, Option.bind_comm]
  simp only [mapM_add?_comm]

theorem Swapped.cells?_eq {formula other : Formula} (sides : Swapped formula other) :
    cells? table formula = cells? table other := by
  induction sides with
  | refl _ => rfl
  | trans _ _ front back => exact front.trans back
  | sum_comm left right => exact cells?_sum_comm left right
  | sum _ _ lefts rights => rw [cells?_sum, cells?_sum, lefts, rights]
  | _ => rw [cells?_predicate rfl, cells?_predicate rfl]

theorem Swapped.marks?_eq {formula other : Formula} (sides : Swapped formula other) :
    marks? table formula = marks? table other := by
  induction sides with
  | refl _ => rfl
  | trans _ _ front back => exact front.trans back
  | sum_comm left right => rw [marks?_bare rfl, marks?_bare rfl, cells?_sum_comm]
  | both_comm left right =>
      rw [marks?_both, marks?_both, Option.bind_comm]
      simp only [List.zipWith_comm_of_comm Bool.and_comm]
  | either_comm left right =>
      rw [marks?_either, marks?_either, Option.bind_comm]
      simp only [List.zipWith_comm_of_comm Bool.or_comm]
  | sum lefts rights _ _ =>
      rw [marks?_bare rfl, marks?_bare rfl, (Swapped.sum lefts rights).cells?_eq]
  | compare comparison lefts rights _ _ =>
      rw [marks?_compare, marks?_compare, lefts.cells?_eq, rights.cells?_eq]
  | nullTest negated operands _ => rw [marks?_nullTest, marks?_nullTest, operands.cells?_eq]
  | both _ _ lefts rights => rw [marks?_both, marks?_both, lefts, rights]
  | either _ _ lefts rights => rw [marks?_either, marks?_either, lefts, rights]
  | group _ inners => exact inners

theorem Rearranged.marks?_eq {formula other : Formula} (rearranged : Rearranged formula other) :
    marks? table formula = marks? table other := by
  induction rearranged with
  | swapped sides => exact sides.marks?_eq
  | trans _ _ front back => exact front.trans back
  | wrap _ | unwrap _ => rfl
  | both _ _ lefts rights => rw [marks?_both, marks?_both, lefts, rights]
  | either _ _ lefts rights => rw [marks?_either, marks?_either, lefts, rights]
  | group _ inners => exact inners

theorem mask_evaluate (formula : Formula) (table : Table) :
    (formula.evaluate table).mask =
      (marks? table formula).getD (List.replicate table.size false) := by
  unfold marks?
  cases result : marksOf table formula with
  | error issue => exact (evaluate_of_marksOf_error result).1
  | ok marks => exact (evaluate_of_marksOf_ok result).1

/-- A rearranged formula marks the same rows of every table. -/
theorem evaluate_rearranged {formula other : Formula} (rearranged : Rearranged formula other)
    (table : Table) : (other.evaluate table).mask = (formula.evaluate table).mask := by
  rw [mask_evaluate, mask_evaluate, rearranged.marks?_eq]

theorem evaluate_rearranged_nested :
    let pay : Formula := .sum (.field "base") (.field "bonus")
    let paid : Formula := .sum (.field "bonus") (.field "base")
    let known : Formula := .nullTest (.field "bonus") true
    let formula : Formula :=
      .both (.compare pay .greater (.literal (.int 20))) (.either known (.field "exempt"))
    let other : Formula :=
      .group (.both (.either (.group (.field "exempt")) known)
        (.group (.compare paid .greater (.literal (.int 20)))))
    let table : Table :=
      ⟨[⟨"base", .int, [.int 30, .int 30, .int 5, .int 19]⟩,
        ⟨"bonus", .float, [.float 1, .float Number.notANumber, .float 1, .float 2]⟩,
        ⟨"exempt", .bool, [.bool false, .bool true, .bool true, .null]⟩], 4⟩
    Rearranged formula other ∧ (other.evaluate table).mask = (formula.evaluate table).mask ∧
      (other.evaluate table).mask = [true, false, false, true] := by
  intro pay paid known formula other table
  have compared : Rearranged (.compare pay .greater (.literal (.int 20)))
      (.group (.compare paid .greater (.literal (.int 20)))) :=
    .trans (.swapped (.compare _ (.sum_comm _ _) (.refl _))) (.wrap _)
  have joined : Rearranged (.either known (.field "exempt"))
      (.either (.group (.field "exempt")) known) :=
    .trans (.swapped (.either_comm _ _)) (.either (.wrap _) (.swapped (.refl _)))
  have rearranged : Rearranged formula other :=
    .trans (.trans (.both compared joined) (.swapped (.both_comm _ _))) (.wrap _)
  exact ⟨rearranged, evaluate_rearranged rearranged table, by decide +kernel⟩

/-- The formulas may end early over different issues. -/
example :
    let table : Table := ⟨[], 2⟩
    let sum (left right : String) : Formula := .sum (.field left) (.field right)
    ((sum "a" "b").evaluate table).issues = [.unknownField "a"] ∧
      ((sum "b" "a").evaluate table).issues = [.unknownField "b"] := by
  decide +kernel

end Formula

end TableSieve
