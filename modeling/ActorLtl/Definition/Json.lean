/-
# Property files

A property file is an object with the three sections, each a list of definitions and empty if
it is not there.  The nodes of its trees get their identities as they are come to
(`ActorLtl.Expression.Json`).
-/

import ActorLtl.Definition
import ActorLtl.Expression.Json

namespace ActorLtl

open Expression (Numbering)

namespace Definition

def toJson (d : Definition) : Json :=
  .object (("name", .text d.name) ::
    Expression.slotMember "expression" (Expression.slotToJson d.expression))

/-- Takes in a definition. -/
def read : Nat → Json → Numbering Definition
  | 0, _ => failure
  | levels + 1, v => do
      let held ← Expression.readFields (Expression.readTree levels)
        [("name", .text), ("expression", .slot)] v
      let some name := Expression.heldText held "name" | failure
      return { name, expression := Expression.heldSlot held "expression" }

end Definition

namespace PropertyModel

def toJson (p : PropertyModel) : Json :=
  .object [
    ("definitions", .array (p.definitions.map Definition.toJson)),
    ("ltl_definitions", .array (p.ltlDefinitions.map Definition.toJson)),
    ("assertion_definitions", .array (p.assertionDefinitions.map Definition.toJson))]

/-- Takes in the definitions of a section. -/
def readSection : Nat → Json → Numbering (List Definition)
  | levels + 1, .array items => items.mapM (Definition.read levels)
  | _, _ => failure

/-- Takes in a property model, its sections in the order of the file. -/
def read : Nat → Json → Numbering PropertyModel
  | 0, _ => failure
  | levels + 1, v => do
      let sections ← Decoder.inOrder ["definitions", "ltl_definitions", "assertion_definitions"]
        (fun _ => readSection levels) v
      let named (name : String) := (sections.lookup name).getD []
      return {
        definitions := named "definitions"
        ltlDefinitions := named "ltl_definitions"
        assertionDefinitions := named "assertion_definitions" }

end PropertyModel
end ActorLtl
