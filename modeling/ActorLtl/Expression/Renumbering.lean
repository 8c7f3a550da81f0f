/-
# Identities given out again

`renumber` goes through a tree as a reader comes to its nodes, the parts of a node before the node
itself, and gives the terms and literals the next identities.  Nothing but the identities changes
(`withoutIds_renumber`), and the new ones are consecutive from where it starts
(`consecutive_renumber`): none stands twice, and none has been given out before.
-/

import ActorLtl.Definition
import ActorLtl.Expression.Alike
import ActorLtl.Expression.Json
import Mathlib.Logic.Basic

namespace ActorLtl
namespace Expression

mutual
/-- The identities in a tree, those in the parts of a node before its own. -/
def ids : Expression → List NodeId
  | binary _ left right => slotIds left ++ slotIds right
  | unary _ operand => slotIds operand
  | member left right => slotIds left ++ slotIds right
  | term id _ none => [id]
  | term id _ (some arguments) => listIds arguments ++ [id]
  | literal id _ => [id]
  | ternary condition thenPart elsePart =>
      slotIds condition ++ (slotIds thenPart ++ slotIds elsePart)
  | group inner => slotIds inner
  | cast _ inner => slotIds inner
  | typeTest _ inner => slotIds inner
  | choice choices => listIds choices
/-- The identities in a slot. -/
def slotIds : Option Expression → List NodeId
  | none => []
  | some e => ids e
/-- The identities in several trees. -/
def listIds : List Expression → List NodeId
  | [] => []
  | e :: es => ids e ++ listIds es
end

mutual
/-- The expression with new identities. -/
def renumber : Expression → StateM NodeId Expression
  | binary operator left right => do
      let left ← renumberSlot left
      let right ← renumberSlot right
      return binary operator left right
  | unary operator operand => do
      let operand ← renumberSlot operand
      return unary operator operand
  | member left right => do
      let left ← renumberSlot left
      let right ← renumberSlot right
      return member left right
  | term _ name none => do
      let id ← freshId
      return term id name none
  | term _ name (some arguments) => do
      let arguments ← renumberList arguments
      let id ← freshId
      return term id name (some arguments)
  | literal _ value => do
      let id ← freshId
      return literal id value
  | ternary condition thenPart elsePart => do
      let condition ← renumberSlot condition
      let thenPart ← renumberSlot thenPart
      let elsePart ← renumberSlot elsePart
      return ternary condition thenPart elsePart
  | group inner => do
      let inner ← renumberSlot inner
      return group inner
  | cast targetType inner => do
      let inner ← renumberSlot inner
      return cast targetType inner
  | typeTest typeName inner => do
      let inner ← renumberSlot inner
      return typeTest typeName inner
  | choice choices => do
      let choices ← renumberList choices
      return choice choices
/-- What a slot holds, with new identities. -/
def renumberSlot : Option Expression → StateM NodeId (Option Expression)
  | none => return none
  | some e => do
      let e ← renumber e
      return some e
/-- Several expressions with new identities. -/
def renumberList : List Expression → StateM NodeId (List Expression)
  | [] => return []
  | e :: es => do
      let e ← renumber e
      let es ← renumberList es
      return e :: es
end

/-! ## What stays -/

mutual
/-- **Renumbering changes nothing but identities.** -/
theorem withoutIds_renumber : (e : Expression) → (n : NodeId) →
    ((renumber e).run n).1.withoutIds = e.withoutIds
  | binary operator left right, n =>
      congrArg₂ (binary operator) (withoutIds_renumberSlot left n)
        (withoutIds_renumberSlot right _)
  | unary operator operand, n => congrArg (unary operator) (withoutIds_renumberSlot operand n)
  | member left right, n =>
      congrArg₂ member (withoutIds_renumberSlot left n) (withoutIds_renumberSlot right _)
  | term _ name none, n => rfl
  | term _ name (some arguments), n =>
      congrArg (fun arguments => term 0 name (some arguments)) (withoutIds_renumberList arguments n)
  | literal _ value, n => rfl
  | ternary condition thenPart elsePart, n => by
      have ofCondition := withoutIds_renumberSlot condition n
      have ofThen := withoutIds_renumberSlot thenPart ((renumberSlot condition).run n).2
      have ofElse := withoutIds_renumberSlot elsePart
        ((renumberSlot thenPart).run ((renumberSlot condition).run n).2).2
      rw [withoutIds, ← ofCondition, ← ofThen, ← ofElse]
      rfl
  | group inner, n => congrArg group (withoutIds_renumberSlot inner n)
  | cast targetType inner, n => congrArg (cast targetType) (withoutIds_renumberSlot inner n)
  | typeTest typeName inner, n => congrArg (typeTest typeName) (withoutIds_renumberSlot inner n)
  | choice choices, n => congrArg choice (withoutIds_renumberList choices n)
theorem withoutIds_renumberSlot : (slot : Option Expression) → (n : NodeId) →
    slotWithoutIds ((renumberSlot slot).run n).1 = slotWithoutIds slot
  | none, _ => rfl
  | some e, n => congrArg some (withoutIds_renumber e n)
theorem withoutIds_renumberList : (es : List Expression) → (n : NodeId) →
    listWithoutIds ((renumberList es).run n).1 = listWithoutIds es
  | [], _ => rfl
  | e :: es, n => congrArg₂ List.cons (withoutIds_renumber e n) (withoutIds_renumberList es _)
end

/-! ## What is new -/

/-- Whether the identities are the next ones from `first` on, and `next` comes after them. -/
def Consecutive (first : NodeId) (given : List NodeId) (next : NodeId) : Prop :=
  given = List.range' first given.length ∧ next = first + given.length

namespace Consecutive

variable {first middle next : NodeId} {given more : List NodeId}

theorem nil (first : NodeId) : Consecutive first [] first := ⟨rfl, rfl⟩

theorem single (first : NodeId) : Consecutive first [first] (first + 1) := ⟨rfl, rfl⟩

theorem append (h : Consecutive first given middle) (h' : Consecutive middle more next) :
    Consecutive first (given ++ more) next := by
  obtain ⟨eq, rfl⟩ := h
  obtain ⟨eq', rfl⟩ := h'
  refine ⟨?_, by rw [List.length_append, Nat.add_assoc]⟩
  rw [List.length_append, ← List.range'_append_1, ← eq, ← eq']

/-- **None of them stands twice.** -/
theorem nodup (h : Consecutive first given next) : given.Nodup := by
  rw [h.1]
  exact List.nodup_range'

end Consecutive

mutual
/-- **The new identities are consecutive.** -/
theorem consecutive_renumber : (e : Expression) → (n : NodeId) →
    Consecutive n ((renumber e).run n).1.ids ((renumber e).run n).2
  | binary _ left right, n =>
      (consecutive_renumberSlot left n).append (consecutive_renumberSlot right _)
  | unary _ operand, n => consecutive_renumberSlot operand n
  | member left right, n =>
      (consecutive_renumberSlot left n).append (consecutive_renumberSlot right _)
  | term _ _ none, n => .single n
  | term _ _ (some arguments), n => (consecutive_renumberList arguments n).append (.single _)
  | literal _ _, n => .single n
  | ternary condition thenPart elsePart, n =>
      (consecutive_renumberSlot condition n).append
        ((consecutive_renumberSlot thenPart _).append (consecutive_renumberSlot elsePart _))
  | group inner, n => consecutive_renumberSlot inner n
  | cast _ inner, n => consecutive_renumberSlot inner n
  | typeTest _ inner, n => consecutive_renumberSlot inner n
  | choice choices, n => consecutive_renumberList choices n
theorem consecutive_renumberSlot : (slot : Option Expression) → (n : NodeId) →
    Consecutive n (slotIds ((renumberSlot slot).run n).1) ((renumberSlot slot).run n).2
  | none, n => .nil n
  | some e, n => consecutive_renumber e n
theorem consecutive_renumberList : (es : List Expression) → (n : NodeId) →
    Consecutive n (listIds ((renumberList es).run n).1) ((renumberList es).run n).2
  | [], n => .nil n
  | e :: es, n => (consecutive_renumber e n).append (consecutive_renumberList es _)
end

end Expression

open Expression (Consecutive)

/-! ## Definitions and property models -/

namespace Definition

/-- The definition, all nodes with identity 0. -/
def withoutIds (d : Definition) : Definition :=
  { d with expression := Expression.slotWithoutIds d.expression }

/-- The identities in a definition. -/
def ids (d : Definition) : List NodeId := Expression.slotIds d.expression

/-- The definition with new identities. -/
def renumber (d : Definition) : StateM NodeId Definition := do
  let expression ← Expression.renumberSlot d.expression
  return { d with expression }

/-- Several definitions with new identities. -/
def renumberAll : List Definition → StateM NodeId (List Definition)
  | [] => return []
  | d :: ds => do
      let d ← d.renumber
      let ds ← renumberAll ds
      return d :: ds

theorem withoutIds_renumberAll (ds : List Definition) (n : NodeId) :
    ((renumberAll ds).run n).1.map withoutIds = ds.map withoutIds := by
  induction ds generalizing n with
  | nil => rfl
  | cons d ds ih =>
    refine congrArg₂ List.cons ?_ (ih _)
    exact congrArg (Definition.mk d.name) (Expression.withoutIds_renumberSlot d.expression n)

theorem consecutive_renumberAll (ds : List Definition) (n : NodeId) :
    Consecutive n (((renumberAll ds).run n).1.flatMap ids) ((renumberAll ds).run n).2 := by
  induction ds generalizing n with
  | nil => exact .nil n
  | cons d ds ih => exact (Expression.consecutive_renumberSlot d.expression n).append (ih _)

end Definition

namespace PropertyModel

/-- The property model, all nodes with identity 0. -/
def withoutIds (p : PropertyModel) : PropertyModel where
  definitions := p.definitions.map Definition.withoutIds
  ltlDefinitions := p.ltlDefinitions.map Definition.withoutIds
  assertionDefinitions := p.assertionDefinitions.map Definition.withoutIds

/-- The identities in a property model. -/
def ids (p : PropertyModel) : List NodeId := p.all.flatMap Definition.ids

/-- The property model with new identities. -/
def renumber (p : PropertyModel) : StateM NodeId PropertyModel := do
  let definitions ← Definition.renumberAll p.definitions
  let ltlDefinitions ← Definition.renumberAll p.ltlDefinitions
  let assertionDefinitions ← Definition.renumberAll p.assertionDefinitions
  return { definitions, ltlDefinitions, assertionDefinitions }

/-- **Renumbering a property model changes nothing but identities,** -/
theorem withoutIds_renumber (p : PropertyModel) (n : NodeId) :
    (p.renumber.run n).1.withoutIds = p.withoutIds := by
  have ofDefinitions := Definition.withoutIds_renumberAll p.definitions n
  have ofLtl := Definition.withoutIds_renumberAll p.ltlDefinitions
    ((Definition.renumberAll p.definitions).run n).2
  have ofAssertions := Definition.withoutIds_renumberAll p.assertionDefinitions
    ((Definition.renumberAll p.ltlDefinitions).run
      ((Definition.renumberAll p.definitions).run n).2).2
  rw [withoutIds, withoutIds, ← ofDefinitions, ← ofLtl, ← ofAssertions]
  rfl

/-- and the new ones are consecutive. -/
theorem consecutive_renumber (p : PropertyModel) (n : NodeId) :
    Consecutive n (p.renumber.run n).1.ids (p.renumber.run n).2 := by
  rw [ids, all, List.flatMap_append, List.flatMap_append]
  exact ((Definition.consecutive_renumberAll p.definitions n).append
    (Definition.consecutive_renumberAll p.ltlDefinitions _)).append
      (Definition.consecutive_renumberAll p.assertionDefinitions _)

end PropertyModel
end ActorLtl
