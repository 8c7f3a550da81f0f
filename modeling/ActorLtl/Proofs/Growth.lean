/-
# How conversion lets formulas grow

A measure of formulas has costs if each way of making a formula of formulas adds at most its cost
to the greatest measure among them (`Formula.Measured`).  A level of an expression puts at most two
conjunctions or disjunctions and a negation, or one temporal operator, above the formulas of its
operands.  So the measure of a converted formula grows with the nesting of the expression by at most
that much a level (`Expression.measure_slotFormula`).
-/

import ActorLtl.Expression.Keys
import ActorLtl.Expression.Walk

namespace ActorLtl
namespace Formula

/-- What each way of making a formula may add to a measure. -/
structure Costs where
  /-- The measure of a formula without operands. -/
  leaf : Nat
  negation : Nat
  /-- For a conjunction or disjunction of two formulas. -/
  junction : Nat
  temporal : Nat

namespace Costs

variable (c : Costs) {m n : Nat}

/-- What a level of an expression may add: the equivalence of two operands costs most of what is
boolean. -/
def level : Nat := max c.temporal (2 * c.junction + c.negation)

/-- The greatest measure of a formula whose expression has so many levels. -/
def bound (levels : Nat) : Nat := c.leaf + c.level * levels

theorem bound_succ : c.bound (1 + n) = c.bound n + c.level := by
  rw [bound, bound, Nat.mul_add, Nat.mul_one]
  omega

theorem bound_mono (le : m ≤ n) : c.bound m ≤ c.bound n :=
  Nat.add_le_add_left (Nat.mul_le_mul_left c.level le) c.leaf

theorem leaf_le_bound : c.leaf ≤ c.bound n := Nat.le_add_right ..

end Costs

/-- Whether a measure grows by no more than the costs. -/
structure Measured (measure : Formula → Nat) (c : Costs) : Prop where
  constant (value : Bool) : measure (.constant value) ≤ c.leaf
  atom (index : Nat) : measure (.atom index) ≤ c.leaf
  negation (f : Formula) : measure (.negation f) ≤ measure f + c.negation
  and (f g : Formula) : measure (f.and g) ≤ max (measure f) (measure g) + c.junction
  or (f g : Formula) : measure (f.or g) ≤ max (measure f) (measure g) + c.junction
  next (f : Formula) : measure (.next f) ≤ measure f + c.temporal
  globally (f : Formula) : measure (.globally f) ≤ measure f + c.temporal
  eventually (f : Formula) : measure (.eventually f) ≤ measure f + c.temporal
  strongUntil (f g : Formula) :
    measure (.strongUntil f g) ≤ max (measure f) (measure g) + c.temporal
  weakUntil (f g : Formula) : measure (.weakUntil f g) ≤ max (measure f) (measure g) + c.temporal
  strongRelease (f g : Formula) :
    measure (.strongRelease f g) ≤ max (measure f) (measure g) + c.temporal
  release (f g : Formula) : measure (.release f g) ≤ max (measure f) (measure g) + c.temporal

namespace Measured

variable {measure : Formula → Nat} {c : Costs} {n : Nat}

theorem constant_le_bound (h : Measured measure c) (value : Bool) :
    measure (.constant value) ≤ c.bound n :=
  Nat.le_trans (h.constant value) c.leaf_le_bound

theorem atom_le_bound (h : Measured measure c) (index : Nat) :
    measure (.atom index) ≤ c.bound n :=
  Nat.le_trans (h.atom index) c.leaf_le_bound

end Measured
end Formula

open Formula (Costs Measured)

variable {measure : Formula → Nat} {c : Costs} {n : Nat} {left right operand own : Formula}

/-- A node with two operand slots adds at most a level. -/
theorem Formula.measure_between (h : Measured measure c) (text : String)
    (ofLeft : measure left ≤ n) (ofRight : measure right ≤ n) (ofOwn : measure own ≤ n) :
    measure ((between? left right text).getD own) ≤ n + c.level := by
  have level : c.temporal ≤ c.level ∧ 2 * c.junction + c.negation ≤ c.level :=
    Nat.max_le.1 (Nat.le_refl c.level)
  rw [between?_eq]
  cases BinaryOperator.ofSpelling? text with
  | none => exact Nat.le_add_right_of_le ofOwn
  | some op =>
    cases op with
    | and => exact Nat.le_trans (h.and left right) (by omega)
    | or => exact Nat.le_trans (h.or left right) (by omega)
    | implies =>
      have premise := h.negation left
      have whole := h.or (.negation left) right
      show measure (.or (.negation left) right) ≤ _
      omega
    | iff =>
      have premise := h.negation left
      have conclusion := h.negation right
      have forward := h.or (.negation left) right
      have backward := h.or left (.negation right)
      have whole := h.and (.or (.negation left) right) (.or left (.negation right))
      show measure (.and (.or (.negation left) right) (.or left (.negation right))) ≤ _
      omega
    | globally => exact Nat.le_trans (h.globally left) (by omega)
    | eventually => exact Nat.le_trans (h.eventually left) (by omega)
    | next => exact Nat.le_trans (h.next left) (by omega)
    | strongUntil => exact Nat.le_trans (h.strongUntil left right) (by omega)
    | weakUntil => exact Nat.le_trans (h.weakUntil left right) (by omega)
    | strongRelease => exact Nat.le_trans (h.strongRelease left right) (by omega)
    | release => exact Nat.le_trans (h.release left right) (by omega)
    | comparison _ | arithmetic _ => exact Nat.le_add_right_of_le ofOwn

/-- A node with one operand slot adds at most a level. -/
theorem Formula.measure_before (h : Measured measure c) (text : String)
    (ofOperand : measure operand ≤ n) (ofOwn : measure own ≤ n) :
    measure ((before? operand text).getD own) ≤ n + c.level := by
  have level : c.temporal ≤ c.level ∧ 2 * c.junction + c.negation ≤ c.level :=
    Nat.max_le.1 (Nat.le_refl c.level)
  rw [before?_eq]
  cases UnaryOperator.ofSpelling? text with
  | none => exact Nat.le_add_right_of_le ofOwn
  | some op =>
    cases op with
    | not => exact Nat.le_trans (h.negation operand) (by omega)
    | globally => exact Nat.le_trans (h.globally operand) (by omega)
    | eventually => exact Nat.le_trans (h.eventually operand) (by omega)
    | next => exact Nat.le_trans (h.next operand) (by omega)
    | sign => exact Nat.le_add_right_of_le ofOwn

/-- So does a call with an argument. -/
theorem Formula.measure_called (h : Measured measure c) (name : String)
    (ofOperand : measure operand ≤ n) (ofOwn : measure own ≤ n) :
    measure ((called? operand name).getD own) ≤ n + c.level := by
  have level : c.temporal ≤ c.level := Nat.le_max_left ..
  rw [called?_eq]
  cases TemporalCall.ofName? name with
  | none => exact Nat.le_add_right_of_le ofOwn
  | some call =>
    cases call with
    | globally => exact Nat.le_trans (h.globally operand) (Nat.add_le_add ofOperand level)
    | eventually => exact Nat.le_trans (h.eventually operand) (Nat.add_le_add ofOperand level)
    | next => exact Nat.le_trans (h.next operand) (Nat.add_le_add ofOperand level)

/-- A choice between two formulas adds at most a level. -/
theorem Formula.measure_ternary (h : Measured measure c) {condition : Formula}
    (ofCondition : measure condition ≤ n) (ofThen : measure left ≤ n) (ofElse : measure right ≤ n) :
    measure (.or (.and condition left) (.and (.negation condition) right)) ≤ n + c.level := by
  have level : 2 * c.junction + c.negation ≤ c.level := Nat.le_max_right ..
  have negated := h.negation condition
  have first := h.and condition left
  have second := h.and (.negation condition) right
  have whole := h.or (.and condition left) (.and (.negation condition) right)
  omega

namespace Expression

mutual
/-- **A converted formula grows by a level's cost with each level of the expression.** -/
theorem measure_formula (h : Measured measure c) (number : String → Nat) : (e : Expression) →
    measure (e.formula number) ≤ c.bound e.nesting
  | .binary operator left right => by
      rw [formula, nesting, c.bound_succ]
      exact Formula.measure_between h operator
        (Nat.le_trans (measure_slotFormula h number left) (c.bound_mono (Nat.le_max_left ..)))
        (Nat.le_trans (measure_slotFormula h number right) (c.bound_mono (Nat.le_max_right ..)))
        (h.atom_le_bound _)
  | .unary operator operand => by
      rw [formula, nesting, c.bound_succ]
      exact Formula.measure_before h operator (measure_slotFormula h number operand)
        (h.atom_le_bound _)
  | .member .. => h.atom_le_bound _
  | .term id none _ => by
      rw [formula]
      exact h.atom_le_bound _
  | .term id (some name) none => h.atom_le_bound _
  | .term id (some name) (some []) => h.atom_le_bound _
  | .term id (some name) (some (first :: more)) => by
      rw [formula]
      split
      · exact h.atom_le_bound _
      · rw [nesting, c.bound_succ]
        have argument : nesting first ≤ listNesting (first :: more) := Nat.le_max_left ..
        exact Formula.measure_called h name
          (Nat.le_trans (measure_formula h number first) (c.bound_mono argument))
          (h.atom_le_bound _)
  | .literal id none => h.atom_le_bound _
  | .literal _ (some value) => by
      rw [formula]
      split
      · exact h.constant_le_bound true
      · split
        · exact h.constant_le_bound false
        · exact h.atom_le_bound _
  | .ternary condition thenPart elsePart => by
      rw [nesting, c.bound_succ]
      refine Formula.measure_ternary h (Nat.le_trans (measure_slotFormula h number condition) ?_)
        (Nat.le_trans (measure_slotFormula h number thenPart) ?_)
        (Nat.le_trans (measure_slotFormula h number elsePart) ?_) <;>
      exact c.bound_mono (by omega)
  | .group _ => h.atom_le_bound _
  | .cast .. => h.atom_le_bound _
  | .typeTest .. => h.atom_le_bound _
  | .choice _ => h.atom_le_bound _
/-- **So does the formula of what a slot holds.** -/
theorem measure_slotFormula (h : Measured measure c) (number : String → Nat) :
    (slot : Option Expression) → measure (slotFormula number slot) ≤ c.bound (slotNesting slot)
  | none => h.constant_le_bound false
  | some e => measure_formula h number e
end

end Expression
end ActorLtl
