/-
# Formulas by the names of their propositions

Two formulas with name lists of their own are the same formula by name if their trees agree
once every number is replaced by the name it stands for.  `operandCounts` lists how many
operands the conjunctions and disjunctions of a formula have; a formula's text is only clear
if all of them have two at least.
-/

import ActorLtl.Formula

namespace ActorLtl
namespace Formula

mutual
/-- Whether the trees agree when each number stands for its name in its own list. -/
def SameByName (names names' : List String) : Formula → Formula → Prop
  | constant value, constant value' => value = value'
  | atom index, atom index' => names[index]? = names'[index']?
  | negation f, negation f' => SameByName names names' f f'
  | conjunction fs, conjunction fs' => ListSameByName names names' fs fs'
  | disjunction fs, disjunction fs' => ListSameByName names names' fs fs'
  | next f, next f' => SameByName names names' f f'
  | globally f, globally f' => SameByName names names' f f'
  | eventually f, eventually f' => SameByName names names' f f'
  | strongUntil f g, strongUntil f' g' =>
      SameByName names names' f f' ∧ SameByName names names' g g'
  | weakUntil f g, weakUntil f' g' =>
      SameByName names names' f f' ∧ SameByName names names' g g'
  | strongRelease f g, strongRelease f' g' =>
      SameByName names names' f f' ∧ SameByName names names' g g'
  | release f g, release f' g' =>
      SameByName names names' f f' ∧ SameByName names names' g g'
  | _, _ => False
/-- Whether two lists agree, formula by formula. -/
def ListSameByName (names names' : List String) : List Formula → List Formula → Prop
  | [], [] => True
  | f :: fs, f' :: fs' => SameByName names names' f f' ∧ ListSameByName names names' fs fs'
  | _, _ => False
end

mutual
/-- **A formula is the same as itself.** -/
theorem sameByName_refl (names : List String) : (f : Formula) → SameByName names names f f
  | constant _ => rfl
  | atom _ => rfl
  | negation f => sameByName_refl names f
  | conjunction fs => listSameByName_refl names fs
  | disjunction fs => listSameByName_refl names fs
  | next f => sameByName_refl names f
  | globally f => sameByName_refl names f
  | eventually f => sameByName_refl names f
  | strongUntil f g => ⟨sameByName_refl names f, sameByName_refl names g⟩
  | weakUntil f g => ⟨sameByName_refl names f, sameByName_refl names g⟩
  | strongRelease f g => ⟨sameByName_refl names f, sameByName_refl names g⟩
  | release f g => ⟨sameByName_refl names f, sameByName_refl names g⟩
theorem listSameByName_refl (names : List String) :
    (fs : List Formula) → ListSameByName names names fs fs
  | [] => trivial
  | f :: fs => ⟨sameByName_refl names f, listSameByName_refl names fs⟩
end

mutual
/-- How many operands each conjunction and disjunction has. -/
def operandCounts : Formula → List Nat
  | constant _ => []
  | atom _ => []
  | negation f => operandCounts f
  | conjunction fs => fs.length :: listOperandCounts fs
  | disjunction fs => fs.length :: listOperandCounts fs
  | next f => operandCounts f
  | globally f => operandCounts f
  | eventually f => operandCounts f
  | strongUntil f g => operandCounts f ++ operandCounts g
  | weakUntil f g => operandCounts f ++ operandCounts g
  | strongRelease f g => operandCounts f ++ operandCounts g
  | release f g => operandCounts f ++ operandCounts g
/-- The numbers of operands in several formulas. -/
def listOperandCounts : List Formula → List Nat
  | [] => []
  | f :: fs => operandCounts f ++ listOperandCounts fs
end

end Formula
end ActorLtl
