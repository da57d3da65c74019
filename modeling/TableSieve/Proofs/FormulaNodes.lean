import TableSieve.Formula.Basic

/-!
Formulas as trees: the nodes of a formula, the operands from which a node takes values, and the
nodes that make a formula more than an operand.
-/

namespace TableSieve.Formula

def nodes : Formula → List Formula
  | .field name => [.field name]
  | .literal value => [.literal value]
  | .sum left right => .sum left right :: (left.nodes ++ right.nodes)
  | .compare left comparison right => .compare left comparison right :: (left.nodes ++ right.nodes)
  | .nullTest operand negated => .nullTest operand negated :: operand.nodes
  | .both left right => .both left right :: (left.nodes ++ right.nodes)
  | .either left right => .either left right :: (left.nodes ++ right.nodes)
  | .group inner => .group inner :: inner.nodes

/-- The parts of a formula from which it takes a value. -/
def operands : Formula → List Formula
  | .sum left right | .compare left _ right => [left, right]
  | .nullTest operand _ => [operand]
  | _ => []

def isPredicate : Formula → Bool
  | .field _ | .literal _ | .sum _ _ => false
  | _ => true

def isRelation : Formula → Bool
  | .compare _ _ _ | .nullTest _ _ | .both _ _ | .either _ _ => true
  | _ => false

theorem self_mem_nodes (formula : Formula) : formula ∈ formula.nodes := by
  cases formula <;> simp [nodes]

theorem nodes_subset_of_operand {formula operand : Formula} (member : operand ∈ formula.operands) :
    operand.nodes ⊆ formula.nodes := by
  intro node inside
  cases formula with
  | sum left right | compare left _ right =>
      simp only [operands, List.mem_cons, List.not_mem_nil, or_false] at member
      rcases member with rfl | rfl <;> simp [nodes, inside]
  | nullTest operand _ =>
      simp only [operands, List.mem_singleton] at member
      subst member
      simp [nodes, inside]
  | _ => simp [operands] at member

end TableSieve.Formula
