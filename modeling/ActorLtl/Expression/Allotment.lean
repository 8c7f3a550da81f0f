/-
# Identities allotted

Which identities the nodes of a tree get depends on what else gets some at the same time.  `mapIds`
replaces each identity of a tree by the one that it is allotted (`ids_mapIds`) and nothing else
(`withoutIds_mapIds`): of a tree that has been read by itself, it makes the tree that is read along
with others.
-/

import ActorLtl.Expression.Renumbering

namespace ActorLtl
namespace Expression

mutual
/-- The expression with other identities. -/
def mapIds (given : NodeId → NodeId) : Expression → Expression
  | binary operator left right =>
      binary operator (slotMapIds given left) (slotMapIds given right)
  | unary operator operand => unary operator (slotMapIds given operand)
  | member left right => member (slotMapIds given left) (slotMapIds given right)
  | term id name none => term (given id) name none
  | term id name (some arguments) => term (given id) name (some (listMapIds given arguments))
  | literal id value => literal (given id) value
  | ternary condition thenPart elsePart =>
      ternary (slotMapIds given condition) (slotMapIds given thenPart)
        (slotMapIds given elsePart)
  | group inner => group (slotMapIds given inner)
  | cast targetType inner => cast targetType (slotMapIds given inner)
  | typeTest typeName inner => typeTest typeName (slotMapIds given inner)
  | choice choices => choice (listMapIds given choices)
/-- What a slot holds, with other identities. -/
def slotMapIds (given : NodeId → NodeId) : Option Expression → Option Expression
  | none => none
  | some e => some (mapIds given e)
/-- Several expressions with other identities. -/
def listMapIds (given : NodeId → NodeId) : List Expression → List Expression
  | [] => []
  | e :: es => mapIds given e :: listMapIds given es
end

theorem listMapIds_eq_map (given : NodeId → NodeId) (es : List Expression) :
    listMapIds given es = es.map (mapIds given) := by
  induction es with
  | nil => rfl
  | cons e es ih => rw [listMapIds, ih, List.map_cons]

mutual
/-- **Nothing but the identities is replaced.** -/
theorem withoutIds_mapIds (given : NodeId → NodeId) :
    (e : Expression) → (mapIds given e).withoutIds = e.withoutIds
  | binary _ left right => by
      rw [mapIds, withoutIds, withoutIds, withoutIds_slotMapIds given left,
        withoutIds_slotMapIds given right]
  | unary _ operand => by
      rw [mapIds, withoutIds, withoutIds, withoutIds_slotMapIds given operand]
  | member left right => by
      rw [mapIds, withoutIds, withoutIds, withoutIds_slotMapIds given left,
        withoutIds_slotMapIds given right]
  | term _ _ none => by rw [mapIds, withoutIds, withoutIds]
  | term _ _ (some arguments) => by
      rw [mapIds, withoutIds, withoutIds, withoutIds_listMapIds given arguments]
  | literal _ _ => by rw [mapIds, withoutIds, withoutIds]
  | ternary condition thenPart elsePart => by
      rw [mapIds, withoutIds, withoutIds, withoutIds_slotMapIds given condition,
        withoutIds_slotMapIds given thenPart, withoutIds_slotMapIds given elsePart]
  | group inner => by rw [mapIds, withoutIds, withoutIds, withoutIds_slotMapIds given inner]
  | cast _ inner => by rw [mapIds, withoutIds, withoutIds, withoutIds_slotMapIds given inner]
  | typeTest _ inner => by
      rw [mapIds, withoutIds, withoutIds, withoutIds_slotMapIds given inner]
  | choice choices => by
      rw [mapIds, withoutIds, withoutIds, withoutIds_listMapIds given choices]
theorem withoutIds_slotMapIds (given : NodeId → NodeId) :
    (slot : Option Expression) → slotWithoutIds (slotMapIds given slot) = slotWithoutIds slot
  | none => rfl
  | some e => congrArg some (withoutIds_mapIds given e)
theorem withoutIds_listMapIds (given : NodeId → NodeId) :
    (es : List Expression) → listWithoutIds (listMapIds given es) = listWithoutIds es
  | [] => rfl
  | e :: es => congrArg₂ List.cons (withoutIds_mapIds given e) (withoutIds_listMapIds given es)
end

mutual
/-- **Each identity is replaced.** -/
theorem ids_mapIds (given : NodeId → NodeId) :
    (e : Expression) → (mapIds given e).ids = e.ids.map given
  | binary _ left right => by
      rw [mapIds, ids, ids, slotIds_slotMapIds given left, slotIds_slotMapIds given right,
        List.map_append]
  | unary _ operand => by rw [mapIds, ids, ids, slotIds_slotMapIds given operand]
  | member left right => by
      rw [mapIds, ids, ids, slotIds_slotMapIds given left, slotIds_slotMapIds given right,
        List.map_append]
  | term _ _ none => by rw [mapIds, ids, ids, List.map_singleton]
  | term _ _ (some arguments) => by
      rw [mapIds, ids, ids, listIds_listMapIds given arguments, List.map_append,
        List.map_singleton]
  | literal _ _ => by rw [mapIds, ids, ids, List.map_singleton]
  | ternary condition thenPart elsePart => by
      rw [mapIds, ids, ids, slotIds_slotMapIds given condition, slotIds_slotMapIds given thenPart,
        slotIds_slotMapIds given elsePart, List.map_append, List.map_append]
  | group inner => by rw [mapIds, ids, ids, slotIds_slotMapIds given inner]
  | cast _ inner => by rw [mapIds, ids, ids, slotIds_slotMapIds given inner]
  | typeTest _ inner => by rw [mapIds, ids, ids, slotIds_slotMapIds given inner]
  | choice choices => by rw [mapIds, ids, ids, listIds_listMapIds given choices]
theorem slotIds_slotMapIds (given : NodeId → NodeId) :
    (slot : Option Expression) → slotIds (slotMapIds given slot) = (slotIds slot).map given
  | none => rfl
  | some e => ids_mapIds given e
theorem listIds_listMapIds (given : NodeId → NodeId) :
    (es : List Expression) → listIds (listMapIds given es) = (listIds es).map given
  | [] => rfl
  | e :: es => by
      rw [listMapIds, listIds, listIds, ids_mapIds given e, listIds_listMapIds given es,
        List.map_append]
end

end Expression

/-! ## Definitions and property models -/

namespace Definition

/-- The definition with other identities. -/
def mapIds (given : NodeId → NodeId) (d : Definition) : Definition :=
  { d with expression := Expression.slotMapIds given d.expression }

theorem ids_mapIds (given : NodeId → NodeId) (d : Definition) :
    (d.mapIds given).ids = d.ids.map given :=
  Expression.slotIds_slotMapIds given d.expression

end Definition

namespace PropertyModel

/-- The property model with other identities. -/
def mapIds (given : NodeId → NodeId) (p : PropertyModel) : PropertyModel where
  definitions := p.definitions.map (Definition.mapIds given)
  ltlDefinitions := p.ltlDefinitions.map (Definition.mapIds given)
  assertionDefinitions := p.assertionDefinitions.map (Definition.mapIds given)

theorem all_mapIds (given : NodeId → NodeId) (p : PropertyModel) :
    (p.mapIds given).all = p.all.map (Definition.mapIds given) := by
  rw [all, all, List.map_append, List.map_append]
  rfl

theorem ids_mapIds (given : NodeId → NodeId) (p : PropertyModel) :
    (p.mapIds given).ids = p.ids.map given := by
  rw [ids, all_mapIds, List.flatMap_map, ids, List.map_flatMap]
  exact congrArg (List.flatMap · p.all) (funext (Definition.ids_mapIds given))

end PropertyModel
end ActorLtl
