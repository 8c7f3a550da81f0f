/-
# From expressions to formulas

The boolean and temporal structure of an expression becomes structure of a formula.  All
else (comparisons, arithmetic, member accesses, casts, operators that no table lists) is
*opaque*: the whole expression is one atomic proposition, called by its canonical text, so
equal opaque expressions are one proposition wherever they occur.

The numbers come from a registry that conversion passes along.  The operands of a node with
operator, and the first argument of a call, are converted before the node itself, whether or
not the node goes on to use them; the parts of the other opaque nodes are not converted.
-/

import ActorLtl.Expression.Canonical
import ActorLtl.Formula
import ActorLtl.Operator
import ActorLtl.Registry

namespace ActorLtl

/-- The formula that the operator makes of the formulas of its operands.  A temporal operator
with one operand takes the left one.  Comparison and arithmetic make no formula. -/
def BinaryOperator.formula? (left right : Formula) : BinaryOperator → Option Formula
  | .and => some (.and left right)
  | .or => some (.or left right)
  | .implies => some (.or (.negation left) right)
  | .iff => some (.and (.or (.negation left) right) (.or left (.negation right)))
  | .globally => some (.globally left)
  | .eventually => some (.eventually left)
  | .next => some (.next left)
  | .strongUntil => some (.strongUntil left right)
  | .weakUntil => some (.weakUntil left right)
  | .strongRelease => some (.strongRelease left right)
  | .release => some (.release left right)
  | .comparison _ => none
  | .arithmetic _ => none

/-- The formula that the operator makes of the formula of its operand.  A sign makes none. -/
def UnaryOperator.formula? (operand : Formula) : UnaryOperator → Option Formula
  | .not => some (.negation operand)
  | .globally => some (.globally operand)
  | .eventually => some (.eventually operand)
  | .next => some (.next operand)
  | .sign => none

/-- The formula that the call makes of the formula of its first argument. -/
def TemporalCall.formula (argument : Formula) : TemporalCall → Formula
  | .globally => .globally argument
  | .eventually => .eventually argument
  | .next => .next argument

/-- The truth value that a literal spells, in any mixture of ASCII cases. -/
def truthValue? (literal : String) : Option Bool :=
  if literal.toLower = "true" then some true
  else if literal.toLower = "false" then some false
  else none

/-- The name of the proposition that a term without a name is. -/
def anonymousTerm (id : NodeId) : String := "$term#" ++ toString id

/-- The name of the proposition that a literal without a value is. -/
def anonymousLiteral (id : NodeId) : String := "$literal#" ++ toString id

/-- The atomic proposition called `name`. -/
def proposition (name : String) : StateM Registry Formula := do
  return .atom (← modifyGet (·.intern name))

/-- **A proposition is numbered by the registry.** -/
@[simp] theorem proposition_run (name : String) (r : Registry) :
    (proposition name).run r = (.atom (r.intern name).1, (r.intern name).2) := rfl

namespace Expression

/-- The whole expression as one atomic proposition. -/
def asProposition (e : Expression) : StateM Registry Formula := proposition e.canonical

mutual
/-- The formula of an expression. -/
def convert : Expression → StateM Registry Formula
  | e@(binary operator left right) => do
      let left ← convertSlot left
      let right ← convertSlot right
      match (BinaryOperator.ofSpelling? operator).bind (·.formula? left right) with
      | some formula => return formula
      | none => asProposition e
  | e@(unary operator operand) => do
      let operand ← convertSlot operand
      match (UnaryOperator.ofSpelling? operator).bind (·.formula? operand) with
      | some formula => return formula
      | none => asProposition e
  | e@(member ..) => asProposition e
  | term id none _ => proposition (anonymousTerm id)
  | term id (some name) none => proposition (if name = "" then anonymousTerm id else name)
  | term id (some name) (some []) => proposition (if name = "" then anonymousTerm id else name)
  | term id (some name) (some (first :: _)) =>
      if name = "" then proposition (anonymousTerm id)
      else do
        let argument ← convert first
        match TemporalCall.ofName? name with
        | some call => return call.formula argument
        | none => proposition name
  | literal id none => proposition (anonymousLiteral id)
  | literal _ (some value) =>
      match truthValue? value with
      | some truth => return .constant truth
      | none => proposition value
  | ternary condition thenPart elsePart => do
      let condition ← convertSlot condition
      let thenFormula ← convertSlot thenPart
      let elseFormula ← convertSlot elsePart
      return .or (.and condition thenFormula) (.and (.negation condition) elseFormula)
  | e@(group _) => asProposition e
  | e@(cast ..) => asProposition e
  | e@(typeTest ..) => asProposition e
  | e@(choice _) => asProposition e
/-- The formula of what a slot holds; an empty slot is false. -/
def convertSlot : Option Expression → StateM Registry Formula
  | none => return .constant false
  | some e => convert e
end

end Expression
end ActorLtl
