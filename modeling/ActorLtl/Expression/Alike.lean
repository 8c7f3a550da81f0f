/-
# Expressions that are alike

Expressions are alike if only the identities of their nodes and the grouping of their member
accesses, `(a.b).c` or `a.(b.c)`, tell them apart.  `Alike` is the least such relation: an
equivalence that every kind of node respects.  `withoutIds` is for the first half alone.
-/

import ActorLtl.Expression

namespace ActorLtl
namespace Expression

mutual
/-- The expression, all its nodes with identity 0. -/
def withoutIds : Expression → Expression
  | binary operator left right => binary operator (slotWithoutIds left) (slotWithoutIds right)
  | unary operator operand => unary operator (slotWithoutIds operand)
  | member left right => member (slotWithoutIds left) (slotWithoutIds right)
  | term _ name none => term 0 name none
  | term _ name (some arguments) => term 0 name (some (listWithoutIds arguments))
  | literal _ value => literal 0 value
  | ternary condition thenPart elsePart =>
      ternary (slotWithoutIds condition) (slotWithoutIds thenPart) (slotWithoutIds elsePart)
  | group inner => group (slotWithoutIds inner)
  | cast targetType inner => cast targetType (slotWithoutIds inner)
  | typeTest typeName inner => typeTest typeName (slotWithoutIds inner)
  | choice choices => choice (listWithoutIds choices)
/-- What a slot holds, without identities. -/
def slotWithoutIds : Option Expression → Option Expression
  | none => none
  | some e => some (withoutIds e)
/-- Several expressions without identities. -/
def listWithoutIds : List Expression → List Expression
  | [] => []
  | e :: es => withoutIds e :: listWithoutIds es
end

mutual
/-- Only identities and the grouping of member accesses tell the expressions apart. -/
inductive Alike : Expression → Expression → Prop
  | refl (e : Expression) : Alike e e
  | symm {e f : Expression} : Alike e f → Alike f e
  | trans {e f g : Expression} : Alike e f → Alike f g → Alike e g
  | regroup (a b c : Option Expression) :
      Alike (.member (some (.member a b)) c) (.member a (some (.member b c)))
  | binary {operator : String} {left left' right right' : Option Expression} :
      SlotAlike left left' → SlotAlike right right' →
      Alike (.binary operator left right) (.binary operator left' right')
  | unary {operator : String} {operand operand' : Option Expression} :
      SlotAlike operand operand' → Alike (.unary operator operand) (.unary operator operand')
  | member {left left' right right' : Option Expression} :
      SlotAlike left left' → SlotAlike right right' →
      Alike (.member left right) (.member left' right')
  | term {id id' : NodeId} {name : Option String} :
      Alike (.term id name none) (.term id' name none)
  | call {id id' : NodeId} {name : Option String} {arguments arguments' : List Expression} :
      ListAlike arguments arguments' →
      Alike (.term id name (some arguments)) (.term id' name (some arguments'))
  | literal {id id' : NodeId} {value : Option String} :
      Alike (.literal id value) (.literal id' value)
  | ternary {condition condition' thenPart thenPart' elsePart elsePart' : Option Expression} :
      SlotAlike condition condition' → SlotAlike thenPart thenPart' →
      SlotAlike elsePart elsePart' →
      Alike (.ternary condition thenPart elsePart) (.ternary condition' thenPart' elsePart')
  | group {inner inner' : Option Expression} :
      SlotAlike inner inner' → Alike (.group inner) (.group inner')
  | cast {targetType : String} {inner inner' : Option Expression} :
      SlotAlike inner inner' → Alike (.cast targetType inner) (.cast targetType inner')
  | typeTest {typeName : String} {inner inner' : Option Expression} :
      SlotAlike inner inner' → Alike (.typeTest typeName inner) (.typeTest typeName inner')
  | choice {choices choices' : List Expression} :
      ListAlike choices choices' → Alike (.choice choices) (.choice choices')
/-- Both slots are empty, or hold expressions that are alike. -/
inductive SlotAlike : Option Expression → Option Expression → Prop
  | empty : SlotAlike none none
  | filled {e f : Expression} : Alike e f → SlotAlike (some e) (some f)
/-- The lists are equally long and alike at every place. -/
inductive ListAlike : List Expression → List Expression → Prop
  | nil : ListAlike [] []
  | cons {e f : Expression} {es fs : List Expression} :
      Alike e f → ListAlike es fs → ListAlike (e :: es) (f :: fs)
end

mutual
/-- **Every expression is like its copy without identities.** -/
theorem alike_withoutIds : (e : Expression) → Alike e e.withoutIds
  | .binary _ left right => .binary (slotAlike_withoutIds left) (slotAlike_withoutIds right)
  | .unary _ operand => .unary (slotAlike_withoutIds operand)
  | .member left right => .member (slotAlike_withoutIds left) (slotAlike_withoutIds right)
  | .term _ _ none => .term
  | .term _ _ (some arguments) => .call (listAlike_withoutIds arguments)
  | .literal _ _ => .literal
  | .ternary condition thenPart elsePart =>
      .ternary (slotAlike_withoutIds condition) (slotAlike_withoutIds thenPart)
        (slotAlike_withoutIds elsePart)
  | .group inner => .group (slotAlike_withoutIds inner)
  | .cast _ inner => .cast (slotAlike_withoutIds inner)
  | .typeTest _ inner => .typeTest (slotAlike_withoutIds inner)
  | .choice choices => .choice (listAlike_withoutIds choices)
theorem slotAlike_withoutIds : (slot : Option Expression) → SlotAlike slot (slotWithoutIds slot)
  | none => .empty
  | some e => .filled (alike_withoutIds e)
theorem listAlike_withoutIds : (es : List Expression) → ListAlike es (listWithoutIds es)
  | [] => .nil
  | e :: es => .cons (alike_withoutIds e) (listAlike_withoutIds es)
end

end Expression
end ActorLtl
