/-
# The operands of a formula

`operands` lists what stands directly below the root of a formula.  A formula mentions a
proposition if it is the proposition or one of its operands mentions it (`Mentions`), whatever
the operator.
-/

import ActorLtl.Formula

namespace ActorLtl
namespace Formula

/-- The formulas directly below the root, left to right. -/
def operands : Formula → List Formula
  | constant _ | atom _ => []
  | negation f | next f | globally f | eventually f => [f]
  | conjunction fs | disjunction fs => fs
  | strongUntil f g | weakUntil f g | strongRelease f g | release f g => [f, g]

/-- **An operand is smaller than the formula.** -/
theorem sizeOf_lt_of_mem_operands {f g : Formula} (h : g ∈ f.operands) : sizeOf g < sizeOf f := by
  cases f with
  | constant _ | atom _ => exact absurd h List.not_mem_nil
  | negation f | next f | globally f | eventually f =>
    obtain rfl := List.mem_singleton.1 h
    simp
  | conjunction fs | disjunction fs =>
    have inside : sizeOf g < sizeOf fs := List.sizeOf_lt_of_mem h
    simp only [conjunction.sizeOf_spec, disjunction.sizeOf_spec]
    omega
  | strongUntil f f' | weakUntil f f' | strongRelease f f' | release f f' =>
    have side : g = f ∨ g = f' := by simpa [operands] using h
    simp only [strongUntil.sizeOf_spec, weakUntil.sizeOf_spec, strongRelease.sizeOf_spec,
      release.sizeOf_spec]
    rcases side with rfl | rfl <;> omega

/-- Whether a proposition occurs in a formula. -/
inductive Mentions (index : Nat) : Formula → Prop
  | atom : Mentions index (.atom index)
  | operand {f g : Formula} : g ∈ f.operands → Mentions index g → Mentions index f

end Formula
end ActorLtl
