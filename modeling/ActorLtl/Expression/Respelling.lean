/-
# Spellings of one expression

Two expressions are respellings of one another if they differ in nothing but which of the two
spellings of a connective they have (`ActorLtl.Operator.Spelling`), and only where the spelling is
not part of a name: not inside opaque nodes, whose canonical text quotes every operator as it
stands.  A temporal operator with one operand may also change between its two forms, before its
operand and with an empty right slot.
-/

import ActorLtl.Expression
import ActorLtl.Operator.Spelling

namespace ActorLtl
namespace Expression

mutual
/-- The expressions differ in the spelling of connectives outside opaque nodes only. -/
inductive Respelled : Expression → Expression → Prop
  | same (e : Expression) : Respelled e e
  | binary {spelling spelling' : String} {left left' right right' : Option Expression} :
      SpeltAlike BinaryOperator.connectives spelling spelling' →
      SlotRespelled left left' → SlotRespelled right right' →
      Respelled (.binary spelling left right) (.binary spelling' left' right')
  | unary {spelling spelling' : String} {operand operand' : Option Expression} :
      SpeltAlike UnaryOperator.connectives spelling spelling' → SlotRespelled operand operand' →
      Respelled (.unary spelling operand) (.unary spelling' operand')
  | toBinary {spelling spelling' : String} {operand operand' : Option Expression} :
      SpeltAlike UnaryOperator.movable spelling spelling' → SlotRespelled operand operand' →
      Respelled (.unary spelling operand) (.binary spelling' operand' none)
  | toUnary {spelling spelling' : String} {operand operand' : Option Expression} :
      SpeltAlike UnaryOperator.movable spelling spelling' → SlotRespelled operand operand' →
      Respelled (.binary spelling operand none) (.unary spelling' operand')
  | call {id : NodeId} {name : Option String} {arguments arguments' : List Expression} :
      ListRespelled arguments arguments' →
      Respelled (.term id name (some arguments)) (.term id name (some arguments'))
  | ternary {condition condition' thenPart thenPart' elsePart elsePart' : Option Expression} :
      SlotRespelled condition condition' → SlotRespelled thenPart thenPart' →
      SlotRespelled elsePart elsePart' →
      Respelled (.ternary condition thenPart elsePart) (.ternary condition' thenPart' elsePart')
/-- Both slots are empty, or hold respellings. -/
inductive SlotRespelled : Option Expression → Option Expression → Prop
  | empty : SlotRespelled none none
  | filled {e e' : Expression} : Respelled e e' → SlotRespelled (some e) (some e')
/-- The lists are equally long and hold respellings at the same places. -/
inductive ListRespelled : List Expression → List Expression → Prop
  | nil : ListRespelled [] []
  | cons {e e' : Expression} {es es' : List Expression} :
      Respelled e e' → ListRespelled es es' → ListRespelled (e :: es) (e' :: es')
end

/-- Written out or not, before its operand or beside an empty slot. -/
example (e : Expression) :
    Respelled (.unary "G" (some (.binary "and" (some e) none)))
      (.binary "globally" (some (.binary "&&" (some e) none)) none) :=
  .toBinary (by decide) (.filled (.binary (by decide) (.filled (.same e)) .empty))

end Expression
end ActorLtl
