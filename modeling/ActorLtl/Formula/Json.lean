/-
# Formulas in JSON

A formula is an object with one member, whose key names the connective.  One operand stands
by itself, two operands stand in an array of two, and the operands of a conjunction or
disjunction in an array of any length:
`{"Until":[{"AtomicProposition":0},{"Next":{"BooleanConstant":true}}]}`.
-/

import ActorLtl.Formula
import ActorLtl.Json.Decoder

namespace ActorLtl
namespace Formula

mutual
def toJson : Formula → Json
  | constant value => .object [("BooleanConstant", .bool value)]
  | atom index => .object [("AtomicProposition", .natural index)]
  | negation f => .object [("Negation", toJson f)]
  | conjunction fs => .object [("Conjunction", .array (listToJson fs))]
  | disjunction fs => .object [("Disjunction", .array (listToJson fs))]
  | next f => .object [("Next", toJson f)]
  | globally f => .object [("Globally", toJson f)]
  | eventually f => .object [("Finally", toJson f)]
  | strongUntil f g => .object [("Until", .array [toJson f, toJson g])]
  | weakUntil f g => .object [("WeakUntil", .array [toJson f, toJson g])]
  | strongRelease f g => .object [("StrongRelease", .array [toJson f, toJson g])]
  | release f g => .object [("Release", .array [toJson f, toJson g])]
def listToJson : List Formula → List Json
  | [] => []
  | f :: fs => toJson f :: listToJson fs
end

/-- A formula of two operands, from their array. -/
def ofPair? (make : Formula → Formula → Formula) (operands : Option (List Formula)) :
    Option Formula :=
  match operands with
  | some [f, g] => some (make f g)
  | _ => none

/-- The formula with this connective, `operand` taking in a formula inside it. -/
def ofMember? (levels : Nat) (operand : Decoder Formula) (connective : String) (v : Json) :
    Option Formula :=
  match connective with
  | "BooleanConstant" => (Decoder.bool levels v).map constant
  | "AtomicProposition" => (Decoder.natural levels v).map atom
  | "Negation" => (operand levels v).map negation
  | "Conjunction" => (Decoder.list operand levels v).map conjunction
  | "Disjunction" => (Decoder.list operand levels v).map disjunction
  | "Next" => (operand levels v).map next
  | "Globally" => (operand levels v).map globally
  | "Finally" => (operand levels v).map eventually
  | "Until" => ofPair? strongUntil (Decoder.list operand levels v)
  | "WeakUntil" => ofPair? weakUntil (Decoder.list operand levels v)
  | "StrongRelease" => ofPair? strongRelease (Decoder.list operand levels v)
  | "Release" => ofPair? release (Decoder.list operand levels v)
  | _ => none

/-- Takes in a formula whose tree has at most `height` objects inside one another. -/
def ofJson? : Nat → Decoder Formula
  | height + 1, levels + 1, .object [(connective, v)] =>
      ofMember? levels (ofJson? height) connective v
  | _, _, _ => none

/-- A formula.  Every object opens a level, so the levels bound its height as well. -/
def decoder : Decoder Formula := fun levels v => ofJson? levels levels v

end Formula

namespace LabelledFormula

def toJson (labelled : LabelledFormula) : Json :=
  .object [("formula", labelled.formula.toJson),
    ("propositions", .array (labelled.propositions.map .text))]

def decoder : Decoder LabelledFormula :=
  .record ["formula", "propositions"] fun fields => do
    return {
      formula := ← fields.required "formula" Formula.decoder
      propositions := ← fields.required "propositions" (.list .text) }

end LabelledFormula
end ActorLtl
