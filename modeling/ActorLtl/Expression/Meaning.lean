/-
# What expressions mean

`Expression.Holds` reads an expression as a timed property, without numbers, without formulas and
without the tables of operators: each spelling means what is written down for it here.  Everything
opaque is true where the proposition of its canonical text is.  An empty slot is false.

This is the meaning that conversion has to keep: `Registry.onNumbers` turns a trace of names
into the trace of their numbers, on which the converted formula is to say the same.
-/

import ActorLtl.Expression.Canonical
import ActorLtl.Formula.Trace
import ActorLtl.Registry

namespace ActorLtl

namespace Timed

/-- What a text between two operands states of what they state, if it is a connective there. -/
def between? (left right : Timed) : String → Option Timed
  | "&&" | "and" => some fun t => left t ∧ right t
  | "||" | "or" => some fun t => left t ∨ right t
  | "->" | "implies" => some fun t => left t → right t
  | "<->" | "iff" => some fun t => left t ↔ right t
  | "G" | "globally" => some left.globally
  | "F" | "finally" => some left.eventually
  | "X" | "next" => some left.next
  | "U" | "until" => some (left.strongUntil right)
  | "W" | "weak_until" => some (left.weakUntil right)
  | "M" | "strong_release" => some (left.strongRelease right)
  | "R" | "release" => some (left.release right)
  | _ => none

/-- What a text before an operand states of what it states, if it is a connective there. -/
def before? (operand : Timed) : String → Option Timed
  | "!" | "not" => some fun t => ¬ operand t
  | "G" | "globally" => some operand.globally
  | "F" | "finally" => some operand.eventually
  | "X" | "next" => some operand.next
  | _ => none

/-- What the name of a call states of what its first argument states, if the call is temporal. -/
def called? (argument : Timed) : String → Option Timed
  | "G" => some argument.globally
  | "F" => some argument.eventually
  | "X" => some argument.next
  | _ => none

end Timed

namespace Expression

mutual
/-- The timed property that an expression states about a trace. -/
def Holds (trace : Trace String) : Expression → Timed
  | e@(binary operator left right) =>
      (Timed.between? (SlotHolds trace left) (SlotHolds trace right) operator).getD
        fun t => trace t e.canonical
  | e@(unary operator operand) =>
      (Timed.before? (SlotHolds trace operand) operator).getD fun t => trace t e.canonical
  | e@(member ..) => fun t => trace t e.canonical
  | term id none _ => fun t => trace t ("$term#" ++ toString id)
  | term id (some name) none =>
      fun t => trace t (if name = "" then "$term#" ++ toString id else name)
  | term id (some name) (some []) =>
      fun t => trace t (if name = "" then "$term#" ++ toString id else name)
  | term id (some name) (some (first :: _)) =>
      if name = "" then fun t => trace t ("$term#" ++ toString id)
      else (Timed.called? (Holds trace first) name).getD fun t => trace t name
  | literal id none => fun t => trace t ("$literal#" ++ toString id)
  | literal _ (some value) =>
      if value.toLower = "true" then fun _ => True
      else if value.toLower = "false" then fun _ => False
      else fun t => trace t value
  | ternary condition thenPart elsePart => fun t =>
      (SlotHolds trace condition t → SlotHolds trace thenPart t) ∧
        (¬ SlotHolds trace condition t → SlotHolds trace elsePart t)
  | e@(group _) => fun t => trace t e.canonical
  | e@(cast ..) => fun t => trace t e.canonical
  | e@(typeTest ..) => fun t => trace t e.canonical
  | e@(choice _) => fun t => trace t e.canonical
/-- The timed property of a slot. -/
def SlotHolds (trace : Trace String) : Option Expression → Timed
  | none => fun _ => False
  | some e => Holds trace e
end

end Expression

namespace Registry

/-- The trace of numbers that a trace of names is under a registry: a number is true where its
name is. -/
def onNumbers (r : Registry) (trace : Trace String) : Trace Nat := fun t index =>
  ∃ name, r.nameList[index]? = some name ∧ trace t name

end Registry
end ActorLtl
