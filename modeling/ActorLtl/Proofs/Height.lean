/-
# What the depth limit means for formulas

The depth of an expression bounds its formula: temporal operators are not nested more deeply than
the nodes of the expression, and a level of the expression puts at most three levels on the formula
(`Formula.measured_height`), an equivalence and a choice between two parts all three.  So a limit on
depth is a limit on the height of every formula that assembly gives
(`Expression.depth_bounds_formula`).
-/

import ActorLtl.Proofs.Depth
import ActorLtl.Proofs.Growth
import ActorLtl.Proofs.Refusal

namespace ActorLtl
namespace Formula

/-- Every operator stands one level above its operands. -/
def heightCosts : Costs where
  leaf := 1
  negation := 1
  junction := 1
  temporal := 1

/-- Only temporal operators count. -/
def temporalCosts : Costs where
  leaf := 0
  negation := 0
  junction := 0
  temporal := 1

/-- **The height of formulas grows by these costs,** which are three a level. -/
theorem measured_height : Measured height heightCosts := by
  constructor <;> intros <;>
    simp only [height, listHeight, Formula.and, Formula.or, heightCosts] <;>
    omega

/-- **So does the nesting of temporal operators,** by one a level. -/
theorem measured_temporalDepth : Measured temporalDepth temporalCosts := by
  constructor <;> intros <;>
    simp only [temporalDepth, listTemporalDepth, Formula.and, Formula.or, temporalCosts] <;>
    omega

end Formula

namespace Expression

/-- **Temporal operators are nested no more deeply than nodes.** -/
theorem temporalDepth_formula_le (e : Expression) (number : String → Nat) :
    (e.formula number).temporalDepth ≤ e.depth := by
  have grown := measure_formula Formula.measured_temporalDepth number e
  rw [depth_eq_nesting]
  simpa [Formula.Costs.bound, Formula.Costs.level, Formula.temporalCosts] using grown

/-- **A level of the expression is at most three of the formula.** -/
theorem height_formula_le (e : Expression) (number : String → Nat) :
    (e.formula number).height ≤ 3 * e.depth + 1 := by
  have grown := measure_formula Formula.measured_height number e
  rw [depth_eq_nesting]
  simpa [Formula.Costs.bound, Formula.Costs.level, Formula.heightCosts, Nat.add_comm] using grown

/-- **Depth bounds formulas.**  The formula that an expression is converted to, with any registry,
nests temporal operators no more deeply than the expression is deep, is at most three times as high
and a leaf, and joins two formulas at a time.  So a limit that lets an expression pass bounds the
formula of its definition in the same way. -/
theorem depth_bounds_formula (e : Expression) (r : Registry) :
    let f := (e.convert.run r).1
    (f.temporalDepth ≤ e.depth ∧ f.height ≤ 3 * e.depth + 1 ∧ ∀ n ∈ f.operandCounts, n = 2) ∧
    ∀ (limit : Nat) (d : Definition) (labelled : LabelledFormula), d.expression = some e →
      ((d.assemble limit).run r).1 = .ok labelled →
      labelled.formula.temporalDepth ≤ limit ∧ labelled.formula.height ≤ 3 * limit + 1 ∧
        ∀ n ∈ labelled.formula.operandCounts, n = 2 := by
  have bounds (number : String → Nat) : (e.formula number).temporalDepth ≤ e.depth ∧
      (e.formula number).height ≤ 3 * e.depth + 1 ∧ ∀ n ∈ (e.formula number).operandCounts, n = 2 :=
    ⟨temporalDepth_formula_le e number, height_formula_le e number,
      operandCounts_slotFormula number (some e)⟩
  constructor
  · rw [convert_run e r (Registry.Extends.refl _)]
    exact bounds _
  · intro limit d labelled expression assembled
    by_cases within : d.IsWithin limit
    · rw [Definition.assemble_of_isWithin within] at assembled
      obtain rfl := Except.ok.inj assembled
      have depth : e.depth ≤ limit := within e expression
      rw [Definition.labelled, expression]
      obtain ⟨temporal, height, joined⟩ :=
        bounds (r.internAll (slotKeys (some e))).number
      exact ⟨Nat.le_trans temporal depth, Nat.le_trans height (by omega), joined⟩
    · obtain ⟨_, _, _, refused⟩ := Definition.assemble_of_not_isWithin within r
      rw [refused] at assembled
      cases assembled

/-- An equivalence inside a choice reaches the height that the limit allows. -/
theorem depth_bounds_formula_choice :
    let same : Expression := .binary "<->" none none
    let e : Expression := .ternary (some same) none none
    let d : Definition := ⟨"choice", some e⟩
    ∃ labelled, ((d.assemble 2).run ∅).1 = .ok labelled ∧ labelled.formula.height = 3 * 2 + 1 ∧
      labelled.formula.height ≤ 3 * 2 + 1 ∧ labelled.formula.temporalDepth ≤ 2 ∧
      ∀ n ∈ labelled.formula.operandCounts, n = 2 := by
  intro same e d
  have depth : e.depth = 2 := by
    rw [depth_eq_nesting]
    decide
  have within : d.IsWithin 2 := fun e' here => by
    obtain rfl := Option.some.inj here
    exact Nat.le_of_eq depth
  have assembled := congrArg Prod.fst (Definition.assemble_of_isWithin within ∅)
  have reached (after : Registry) : (d.labelled after).formula.height = 3 * 2 + 1 := by
    simp [d, e, same, Definition.labelled, slotFormula, formula, Formula.between?, Formula.and,
      Formula.or, Formula.height, Formula.listHeight]
  obtain ⟨temporal, height, joined⟩ := (depth_bounds_formula e ∅).2 2 d _ rfl assembled
  exact ⟨_, assembled, reached _, height, temporal, joined⟩

end Expression
end ActorLtl
