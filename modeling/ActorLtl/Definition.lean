/-
# Definitions and their formulas

A property file defines named expressions in three sections: definitions proper, LTL
definitions and assertions.  `assemble` makes a labelled formula of one definition.  It
measures the expression first, and an expression that is nested too deeply leaves the
registry as it was.
-/

import ActorLtl.Conversion
import ActorLtl.Error
import ActorLtl.Expression.Walk

namespace ActorLtl

/-- A named expression; a definition without one is false. -/
structure Definition where
  name : String
  expression : Option Expression
  deriving Repr, BEq, Inhabited

/-- The definitions of a property file. -/
structure PropertyModel where
  definitions : List Definition
  ltlDefinitions : List Definition
  /-- Never made into formulas. -/
  assertionDefinitions : List Definition
  deriving Repr, BEq, Inhabited

namespace PropertyModel

/-- The definitions of all sections, in the order of the sections. -/
def all (p : PropertyModel) : List Definition :=
  p.definitions ++ p.ltlDefinitions ++ p.assertionDefinitions

/-- The definitions that are to become formulas. -/
def selected (p : PropertyModel) (includeLtlDefinitions : Bool) : List Definition :=
  p.definitions ++ if includeLtlDefinitions then p.ltlDefinitions else []

end PropertyModel

/-- How deeply an expression may be nested unless something else is asked for. -/
def defaultDepthLimit : Nat := 2048

namespace Definition

/-- Whether the definition's expression is nested too deeply: its depth if so. -/
def excessiveDepth? (limit : Nat) (d : Definition) : Option Nat :=
  d.expression.bind fun e => if limit < e.depth then some e.depth else none

/-- The formula of a definition, labelled by the names that the registry holds afterwards. -/
def assemble (limit : Nat) (d : Definition) :
    StateM Registry (Except DefinitionError LabelledFormula) := do
  match d.excessiveDepth? limit with
  | some depth => return .error (.depthExceeded d.name depth limit)
  | none =>
      let formula ← Expression.convertSlot d.expression
      let labelled : LabelledFormula := { formula, propositions := (← get).nameList }
      match labelled.firstUnlabelled? with
      | some index =>
          return .error (.danglingProposition d.name index labelled.propositions.length)
      | none => return .ok labelled

/-- **What is nested too deeply leaves no trace.** -/
theorem assemble_of_excessiveDepth? {limit depth : Nat} {d : Definition}
    (h : d.excessiveDepth? limit = some depth) (r : Registry) :
    (d.assemble limit).run r = (.error (.depthExceeded d.name depth limit), r) := by
  simp [assemble, h]
  rfl

end Definition
end ActorLtl
