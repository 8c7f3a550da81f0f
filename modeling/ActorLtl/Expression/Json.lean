/-
# Expressions in JSON

A node is an object whose member `kind` names its kind, anywhere among the others, and whose
other members are the filled slots; only the choices of a non-deterministic choice are always
written.  It may also be an array, the kind first and then the fields in order.  A node
inside another node may give its kind as the position in `kindFields` instead of by name.

The whole tree is taken in before it is looked at.  So everything in it counts towards the
nesting, and everything in it must be readable, members that no kind has included.

Identities are not written.  Terms and literals get new ones while the tree is taken in, in
the order in which the text has the nodes: a node that is an object after its children, one
that is an array before them.  If the tree is refused in the end, the identities given out so
far remain given out.
-/

import ActorLtl.Expression
import ActorLtl.Json.Decoder

namespace ActorLtl
namespace Expression

/-- A member of an object, if the slot is filled. -/
def slotMember (key : String) (slot : Option Json) : List (String × Json) :=
  (slot.map fun v => (key, v)).toList

mutual
def toJson : Expression → Json
  | binary operator left right => .object
      (("kind", .text "binary") :: ("operator", .text operator) ::
        (slotMember "left" (slotToJson left) ++ slotMember "right" (slotToJson right)))
  | unary operator operand => .object
      (("kind", .text "unary") :: ("operator", .text operator) ::
        slotMember "operand" (slotToJson operand))
  | member left right => .object
      (("kind", .text "member_access") ::
        (slotMember "left" (slotToJson left) ++ slotMember "right" (slotToJson right)))
  | term _ name none => .object
      (("kind", .text "term") :: slotMember "name" (name.map .text))
  | term _ name (some arguments) => .object
      (("kind", .text "term") :: (slotMember "name" (name.map .text) ++
        [("arguments", .array (listToJson arguments))]))
  | literal _ value => .object
      (("kind", .text "literal") :: slotMember "value" (value.map .text))
  | ternary condition thenPart elsePart => .object
      (("kind", .text "ternary") :: (slotMember "condition" (slotToJson condition) ++
        slotMember "then_expr" (slotToJson thenPart) ++
        slotMember "else_expr" (slotToJson elsePart)))
  | group inner => .object
      (("kind", .text "arithmetic_group") :: slotMember "expression" (slotToJson inner))
  | cast targetType inner => .object
      (("kind", .text "cast") :: ("target_type", .text targetType) ::
        slotMember "expression" (slotToJson inner))
  | typeTest typeName inner => .object
      (("kind", .text "type_test") :: ("type_name", .text typeName) ::
        slotMember "expression" (slotToJson inner))
  | choice choices => .object
      [("kind", .text "non_deterministic_choice"), ("choices", .array (listToJson choices))]
def slotToJson : Option Expression → Option Json
  | none => none
  | some e => some (toJson e)
def listToJson : List Expression → List Json
  | [] => []
  | e :: es => toJson e :: listToJson es
end

/-- What a field may hold. -/
inductive FieldShape where
  /-- A text. -/
  | text
  /-- A text or nothing. -/
  | optionalText
  /-- An operand or nothing. -/
  | slot
  /-- Several operands. -/
  | list
  /-- Several operands or nothing. -/
  | optionalList
  deriving DecidableEq, Repr

/-- What a field holds. -/
inductive Holding where
  | text (value : Option String)
  | slot (operand : Option Expression)
  | list (operands : Option (List Expression))

/-- The kinds with their fields, in the order in which a node may refer to a kind by its
position. -/
def kindFields : List (String × List (String × FieldShape)) :=
  [("binary", [("operator", .text), ("left", .slot), ("right", .slot)]),
   ("unary", [("operator", .text), ("operand", .slot)]),
   ("member_access", [("left", .slot), ("right", .slot)]),
   ("term", [("name", .optionalText), ("arguments", .optionalList)]),
   ("literal", [("value", .optionalText)]),
   ("ternary", [("condition", .slot), ("then_expr", .slot), ("else_expr", .slot)]),
   ("arithmetic_group", [("expression", .slot)]),
   ("cast", [("target_type", .text), ("expression", .slot)]),
   ("type_test", [("type_name", .text), ("expression", .slot)]),
   ("non_deterministic_choice", [("choices", .list)])]

/-- The kind that a tag names and the kind's fields. -/
def kindOfTag? (nested : Bool) : Json → Option (String × List (String × FieldShape))
  | .text kind => (kindFields.lookup kind).map fun fields => (kind, fields)
  | .natural position => if nested then kindFields[position]? else none
  | _ => none

/-- The tag of a node, and the node without it. -/
def untag? : Json → Option (Json × Json)
  | .object members =>
      match members.filter (·.1 == "kind") with
      | [(_, tag)] => some (tag, .object (members.filter (·.1 != "kind")))
      | _ => none
  | .array (tag :: items) => some (tag, .array items)
  | _ => none

/-- Taking something in while identities are given out.  It may be refused, and then the
identities given out before remain given out. -/
abbrev Numbering (α : Type) := OptionT (StateM NodeId) α

/-- The next identity. -/
def freshId : StateM NodeId NodeId := modifyGet fun next => (next, next + 1)

/-- Takes in what a field holds; `node` takes in an operand. -/
def readField (node : Json → Numbering Expression) : FieldShape → Json → Numbering Holding
  | .text, .text value => return .text (some value)
  | .optionalText, .text value => return .text (some value)
  | .optionalText, .null => return .text none
  | .slot, .null => return .slot none
  | .slot, v => return .slot (some (← node v))
  | .list, .array items => return .list (some (← items.mapM node))
  | .optionalList, .array items => return .list (some (← items.mapM node))
  | .optionalList, .null => return .list none
  | _, _ => failure

/-- Takes in the fields of a record one after the other. -/
def readFields (node : Json → Numbering Expression) (fields : List (String × FieldShape)) :
    Json → Numbering (List (String × Holding)) :=
  Decoder.inOrder (fields.map Prod.fst) fun name v => do
    let some shape := fields.lookup name | failure
    readField node shape v

/-- The text that a field holds, if the field is there. -/
def heldText (held : List (String × Holding)) (name : String) : Option String :=
  match held.lookup name with
  | some (.text value) => value
  | _ => none

/-- The operand that a field holds, if the field is there. -/
def heldSlot (held : List (String × Holding)) (name : String) : Option Expression :=
  match held.lookup name with
  | some (.slot operand) => operand
  | _ => none

/-- The operands that a field holds, if the field is there. -/
def heldList (held : List (String × Holding)) (name : String) : Option (List Expression) :=
  match held.lookup name with
  | some (.list operands) => operands
  | _ => none

/-- The node of this kind whose fields hold this; nothing if a text is missing that must be
there. -/
def ofHeld? (id : NodeId) (kind : String) (held : List (String × Holding)) : Option Expression :=
  let text := heldText held
  let slot := heldSlot held
  match kind with
  | "binary" =>
      (text "operator").map fun operator => binary operator (slot "left") (slot "right")
  | "unary" => (text "operator").map fun operator => unary operator (slot "operand")
  | "member_access" => some (member (slot "left") (slot "right"))
  | "term" => some (term id (text "name") (heldList held "arguments"))
  | "literal" => some (literal id (text "value"))
  | "ternary" => some (ternary (slot "condition") (slot "then_expr") (slot "else_expr"))
  | "arithmetic_group" => some (group (slot "expression"))
  | "cast" => (text "target_type").map fun targetType => cast targetType (slot "expression")
  | "type_test" => (text "type_name").map fun typeName => typeTest typeName (slot "expression")
  | "non_deterministic_choice" => some (choice ((heldList held "choices").getD []))
  | _ => none

/-- The identity of a new node; only terms and literals have one. -/
def identityOf (kind : String) : StateM NodeId NodeId :=
  if kind = "term" ∨ kind = "literal" then freshId else return 0

/-- Takes in a node with its operands; `nested` says that it is an operand itself. -/
def readNode : Nat → Bool → Json → Numbering Expression
  | 0, _, _ => failure
  | levels + 1, nested, v => do
      let some (tag, node) := untag? v | failure
      let some (kind, fields) := kindOfTag? nested tag | failure
      match node with
      | .array _ =>
          let id ← identityOf kind
          let held ← readFields (readNode levels true) fields node
          let some e := ofHeld? id kind held | failure
          return e
      | _ =>
          let held ← readFields (readNode levels true) fields node
          let id ← identityOf kind
          let some e := ofHeld? id kind held | failure
          return e

/-- Takes in a tree, opening at most so many arrays and objects inside one another. -/
def readTree (levels : Nat) (v : Json) : Numbering Expression :=
  if v.nesting ≤ levels ∧ v.isReadable then readNode levels false v else failure

/-- A call as an array comes before its argument, and as an object after it; refused, it keeps
the identities it has used. -/
example :
    (readTree 3 (.array [.text "term", .text "f", .array [.array [.text "literal"]]])).run.run 0 =
      (some (term 0 (some "f") (some [literal 1 none])), 2) ∧
    (readTree 3 (.object [("kind", .text "term"),
      ("arguments", .array [.object [("kind", .text "literal")]])])).run.run 0 =
      (some (term 1 none (some [literal 0 none])), 2) ∧
    (readTree 3 (.array [.text "literal", .text "1", .text "2"])).run.run 0 = (none, 1) := by
  refine ⟨?_, ?_, ?_⟩ <;> rfl

end Expression
end ActorLtl
