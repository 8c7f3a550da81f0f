/-
# What identities do not matter for

The depth and the canonical text of an expression, and the names whose members it accesses, can be
told from a copy without identities.  So can the formula, if every term has a name and every literal
a value (`Expression.convert_withoutIds`): then a batch gives the same outcome for two property
models that only identities tell apart (`Batch.translateModel_eq`).
-/

import ActorLtl.Batch
import ActorLtl.Expression.Alike
import ActorLtl.Expression.Renumbering
import ActorLtl.Proofs.Depth
import ActorLtl.Proofs.Numbering
import ActorLtl.Proofs.References

namespace ActorLtl
namespace Expression

/-! ## Depth, canonical text and references -/

mutual
theorem nesting_withoutIds : (e : Expression) → e.withoutIds.nesting = e.nesting
  | binary _ left right => by
      rw [withoutIds, nesting, nesting, slotNesting_withoutIds left, slotNesting_withoutIds right]
  | unary _ operand => by rw [withoutIds, nesting, nesting, slotNesting_withoutIds operand]
  | member left right => by
      rw [withoutIds, nesting, nesting, slotNesting_withoutIds left, slotNesting_withoutIds right]
  | term _ _ none => by rw [withoutIds, nesting, nesting]
  | term _ _ (some arguments) => by
      rw [withoutIds, nesting, nesting, listNesting_withoutIds arguments]
  | literal _ _ => by rw [withoutIds, nesting, nesting]
  | ternary condition thenPart elsePart => by
      rw [withoutIds, nesting, nesting, slotNesting_withoutIds condition,
        slotNesting_withoutIds thenPart, slotNesting_withoutIds elsePart]
  | group inner => by rw [withoutIds, nesting, nesting, slotNesting_withoutIds inner]
  | cast _ inner => by rw [withoutIds, nesting, nesting, slotNesting_withoutIds inner]
  | typeTest _ inner => by rw [withoutIds, nesting, nesting, slotNesting_withoutIds inner]
  | choice choices => by rw [withoutIds, nesting, nesting, listNesting_withoutIds choices]
theorem slotNesting_withoutIds : (slot : Option Expression) →
    slotNesting (slotWithoutIds slot) = slotNesting slot
  | none => rfl
  | some e => nesting_withoutIds e
theorem listNesting_withoutIds : (es : List Expression) →
    listNesting (listWithoutIds es) = listNesting es
  | [] => rfl
  | e :: es => by
      rw [listWithoutIds, listNesting, listNesting, nesting_withoutIds e, listNesting_withoutIds es]
end

/-- **Depth does not depend on identities.** -/
theorem depth_withoutIds (e : Expression) : e.withoutIds.depth = e.depth := by
  rw [depth_eq_nesting, depth_eq_nesting, nesting_withoutIds]

mutual
theorem piecesOnto_withoutIds : (e : Expression) → (rest : List String) →
    piecesOnto e.withoutIds rest = piecesOnto e rest
  | binary _ left right, rest => by
      simp only [withoutIds, piecesOnto, slotPiecesOnto_withoutIds left,
        slotPiecesOnto_withoutIds right]
  | unary _ operand, rest => by
      simp only [withoutIds, piecesOnto, slotPiecesOnto_withoutIds operand]
  | member left right, rest => by
      simp only [withoutIds, piecesOnto, slotPiecesOnto_withoutIds left,
        slotPiecesOnto_withoutIds right]
  | term _ _ none, rest => by simp only [withoutIds, piecesOnto]
  | term _ _ (some _), rest => by simp only [withoutIds, piecesOnto]
  | literal _ _, rest => by simp only [withoutIds, piecesOnto]
  | ternary condition thenPart elsePart, rest => by
      simp only [withoutIds, piecesOnto, slotPiecesOnto_withoutIds condition,
        slotPiecesOnto_withoutIds thenPart, slotPiecesOnto_withoutIds elsePart]
  | group inner, rest => by
      simp only [withoutIds, piecesOnto, slotPiecesOnto_withoutIds inner]
  | cast _ inner, rest => by
      simp only [withoutIds, piecesOnto, slotPiecesOnto_withoutIds inner]
  | typeTest _ inner, rest => by
      simp only [withoutIds, piecesOnto, slotPiecesOnto_withoutIds inner]
  | choice [], rest => by simp only [withoutIds, listWithoutIds]
  | choice (first :: more), rest => by
      simp only [withoutIds, listWithoutIds, piecesOnto, piecesOnto_withoutIds first,
        morePiecesOnto_withoutIds more]
theorem slotPiecesOnto_withoutIds : (slot : Option Expression) → (rest : List String) →
    slotPiecesOnto (slotWithoutIds slot) rest = slotPiecesOnto slot rest
  | none, _ => rfl
  | some e, rest => piecesOnto_withoutIds e rest
theorem morePiecesOnto_withoutIds : (es : List Expression) → (rest : List String) →
    morePiecesOnto (listWithoutIds es) rest = morePiecesOnto es rest
  | [], _ => rfl
  | e :: es, rest => by
      simp only [listWithoutIds, morePiecesOnto, piecesOnto_withoutIds e,
        morePiecesOnto_withoutIds es]
end

/-- **The canonical text does not depend on identities.** -/
theorem canonical_withoutIds (e : Expression) : e.withoutIds.canonical = e.canonical := by
  rw [canonical, canonical, piecesOnto_withoutIds]

theorem asProposition_withoutIds (e : Expression) : asProposition e.withoutIds = asProposition e := by
  rw [asProposition, asProposition, canonical_withoutIds]

theorem listWithoutIds_append (es fs : List Expression) :
    listWithoutIds (es ++ fs) = listWithoutIds es ++ listWithoutIds fs := by
  induction es with
  | nil => rfl
  | cons e es ih => rw [List.cons_append, listWithoutIds, ih, listWithoutIds, List.cons_append]

theorem toList_slotWithoutIds (slot : Option Expression) :
    (slotWithoutIds slot).toList = listWithoutIds slot.toList := by
  cases slot <;> rfl

theorem children_withoutIds (e : Expression) : e.withoutIds.children = listWithoutIds e.children := by
  cases e with
  | term _ _ arguments => cases arguments <;> rfl
  | _ => simp only [withoutIds, children, listWithoutIds_append, toList_slotWithoutIds, listWithoutIds]

mutual
/-- The walk over the copy meets the copies. -/
theorem nodes_withoutIds (e : Expression) (level : Nat) :
    nodes level e.withoutIds = (nodes level e).map (Prod.map id withoutIds) := by
  rw [nodes_eq, nodes_eq, children_withoutIds, List.map_cons,
    listNodes_withoutIds e.children (level + 1)]
  rfl
termination_by (e.size, 0)
decreasing_by
  have := size_eq_children e
  exact Prod.Lex.left _ _ (by omega)
theorem listNodes_withoutIds (es : List Expression) (level : Nat) :
    listNodes level (listWithoutIds es) = (listNodes level es).map (Prod.map id withoutIds) := by
  cases es with
  | nil => rfl
  | cons e es =>
    rw [listWithoutIds, listNodes, listNodes, List.map_append, listNodes_withoutIds es,
      nodes_withoutIds e]
termination_by (listSize es, 1)
decreasing_by
  · have := size_pos e
    exact Prod.Lex.left _ _ (by simp only [listSize]; omega)
  · rw [Prod.lex_def]
    simp only [listSize]
    omega
end

theorem referredName?_withoutIds (e : Expression) :
    e.withoutIds.referredName? = e.referredName? := by
  cases e with
  | member left right =>
    cases left with
    | none => rfl
    | some left =>
      cases left with
      | term _ name arguments => cases name <;> cases arguments <;> rfl
      | _ => rfl
  | term _ _ arguments => cases arguments <;> rfl
  | _ => rfl

/-- **The names before dots do not depend on identities.** -/
theorem slotReferredNames_withoutIds (slot : Option Expression) :
    slotReferredNames (slotWithoutIds slot) = slotReferredNames slot := by
  cases slot with
  | none => rfl
  | some e =>
    show referredNames e.withoutIds = referredNames e
    rw [referredNames, nodes_withoutIds, List.filterMap_map]
    exact congrArg (List.filterMap · (nodes 1 e)) (funext fun node => referredName?_withoutIds node.2)

/-! ## Formulas -/

/-- Whether there is a name that is not empty. -/
def HasName : Option String → Prop
  | none => False
  | some name => name ≠ ""

mutual
/-- Whether every term has a name and every literal a value. -/
def IsNamed : Expression → Prop
  | binary _ left right => SlotNamed left ∧ SlotNamed right
  | unary _ operand => SlotNamed operand
  | member left right => SlotNamed left ∧ SlotNamed right
  | term _ name none => HasName name
  | term _ name (some arguments) => HasName name ∧ ListNamed arguments
  | literal _ value => value.isSome
  | ternary condition thenPart elsePart =>
      SlotNamed condition ∧ SlotNamed thenPart ∧ SlotNamed elsePart
  | group inner => SlotNamed inner
  | cast _ inner => SlotNamed inner
  | typeTest _ inner => SlotNamed inner
  | choice choices => ListNamed choices
/-- Whether what a slot holds has names and values. -/
def SlotNamed : Option Expression → Prop
  | none => True
  | some e => IsNamed e
/-- Whether several expressions have names and values. -/
def ListNamed : List Expression → Prop
  | [] => True
  | e :: es => IsNamed e ∧ ListNamed es
end

mutual
theorem isNamed_withoutIds : (e : Expression) → (e.withoutIds.IsNamed ↔ e.IsNamed)
  | binary _ left right => by
      rw [withoutIds, IsNamed, IsNamed, slotNamed_withoutIds left, slotNamed_withoutIds right]
  | unary _ operand => by rw [withoutIds, IsNamed, IsNamed, slotNamed_withoutIds operand]
  | member left right => by
      rw [withoutIds, IsNamed, IsNamed, slotNamed_withoutIds left, slotNamed_withoutIds right]
  | term _ _ none => by rw [withoutIds, IsNamed, IsNamed]
  | term _ _ (some arguments) => by
      rw [withoutIds, IsNamed, IsNamed, listNamed_withoutIds arguments]
  | literal _ _ => by rw [withoutIds, IsNamed, IsNamed]
  | ternary condition thenPart elsePart => by
      rw [withoutIds, IsNamed, IsNamed, slotNamed_withoutIds condition,
        slotNamed_withoutIds thenPart, slotNamed_withoutIds elsePart]
  | group inner => by rw [withoutIds, IsNamed, IsNamed, slotNamed_withoutIds inner]
  | cast _ inner => by rw [withoutIds, IsNamed, IsNamed, slotNamed_withoutIds inner]
  | typeTest _ inner => by rw [withoutIds, IsNamed, IsNamed, slotNamed_withoutIds inner]
  | choice choices => by rw [withoutIds, IsNamed, IsNamed, listNamed_withoutIds choices]
theorem slotNamed_withoutIds : (slot : Option Expression) →
    (SlotNamed (slotWithoutIds slot) ↔ SlotNamed slot)
  | none => Iff.rfl
  | some e => isNamed_withoutIds e
theorem listNamed_withoutIds : (es : List Expression) →
    (ListNamed (listWithoutIds es) ↔ ListNamed es)
  | [] => Iff.rfl
  | e :: es => by
      rw [listWithoutIds, ListNamed, ListNamed, isNamed_withoutIds e, listNamed_withoutIds es]
end

mutual
/-- **What has names and values is converted without looking at identities.** -/
theorem convert_withoutIds : (e : Expression) → e.IsNamed → convert e.withoutIds = convert e
  | binary operator left right, h => by
      rw [IsNamed] at h
      have whole := asProposition_withoutIds (binary operator left right)
      rw [withoutIds] at whole ⊢
      rw [convert, convert, convertSlot_withoutIds left h.1, convertSlot_withoutIds right h.2, whole]
  | unary operator operand, h => by
      rw [IsNamed] at h
      have whole := asProposition_withoutIds (unary operator operand)
      rw [withoutIds] at whole ⊢
      rw [convert, convert, convertSlot_withoutIds operand h, whole]
  | member left right, _ => asProposition_withoutIds (member left right)
  | term _ none none, h => by
      rw [IsNamed] at h
      exact h.elim
  | term _ none (some _), h => by
      rw [IsNamed] at h
      exact h.1.elim
  | term _ (some name) none, h => by
      rw [IsNamed] at h
      have named : name ≠ "" := h
      rw [withoutIds, convert, convert, if_neg named, if_neg named]
  | term _ (some name) (some []), h => by
      rw [IsNamed] at h
      have named : name ≠ "" := h.1
      rw [withoutIds, listWithoutIds, convert, convert, if_neg named, if_neg named]
  | term _ (some name) (some (first :: more)), h => by
      rw [IsNamed, ListNamed] at h
      have named : name ≠ "" := h.1
      rw [withoutIds, listWithoutIds, convert, convert, if_neg named, if_neg named,
        convert_withoutIds first h.2.1]
  | literal _ none, h => by
      rw [IsNamed] at h
      cases h
  | literal _ (some value), _ => by rw [withoutIds, convert, convert]
  | ternary condition thenPart elsePart, h => by
      rw [IsNamed] at h
      rw [withoutIds, convert, convert, convertSlot_withoutIds condition h.1,
        convertSlot_withoutIds thenPart h.2.1, convertSlot_withoutIds elsePart h.2.2]
  | group inner, _ => asProposition_withoutIds (group inner)
  | cast targetType inner, _ => asProposition_withoutIds (cast targetType inner)
  | typeTest typeName inner, _ => asProposition_withoutIds (typeTest typeName inner)
  | choice choices, _ => asProposition_withoutIds (choice choices)
theorem convertSlot_withoutIds : (slot : Option Expression) → SlotNamed slot →
    convertSlot (slotWithoutIds slot) = convertSlot slot
  | none, _ => rfl
  | some e, h => convert_withoutIds e h
end

end Expression

/-! ## Definitions -/

namespace Definition

/-- Whether every term has a name and every literal a value. -/
def IsNamed (d : Definition) : Prop := Expression.SlotNamed d.expression

/-- A definition's name, with the depth and the canonical text of its expression. -/
def summary (d : Definition) : String × Option (Nat × String) :=
  (d.name, d.expression.map fun e => (e.depth, e.canonical))

variable (d : Definition)

theorem summary_withoutIds : d.withoutIds.summary = d.summary := by
  obtain ⟨name, expression⟩ := d
  cases expression with
  | none => rfl
  | some e =>
    show (name, some (e.withoutIds.depth, e.withoutIds.canonical)) = _
    rw [Expression.depth_withoutIds, Expression.canonical_withoutIds]
    rfl

theorem excessiveDepth?_withoutIds (limit : Nat) :
    d.withoutIds.excessiveDepth? limit = d.excessiveDepth? limit := by
  obtain ⟨name, expression⟩ := d
  cases expression with
  | none => rfl
  | some e =>
    show (if limit < e.withoutIds.depth then some e.withoutIds.depth else none) = _
    rw [Expression.depth_withoutIds]
    rfl

/-- **A definition with names and values is assembled without looking at identities.** -/
theorem assemble_withoutIds {d : Definition} (named : d.IsNamed) (limit : Nat) :
    d.withoutIds.assemble limit = d.assemble limit := by
  have formula : Expression.convertSlot d.withoutIds.expression =
      Expression.convertSlot d.expression :=
    Expression.convertSlot_withoutIds d.expression named
  rw [assemble, assemble, excessiveDepth?_withoutIds, formula]
  rfl

end Definition

namespace PropertyModel

/-- Whether every term has a name and every literal a value. -/
def IsNamed (p : PropertyModel) : Prop := ∀ d ∈ p.all, d.IsNamed

variable (p : PropertyModel)

theorem all_withoutIds : p.withoutIds.all = p.all.map Definition.withoutIds := by
  rw [all, all, List.map_append, List.map_append]
  rfl

/-- What is selected belongs to a section. -/
theorem mem_all_of_mem_selected {p : PropertyModel} {includeLtlDefinitions : Bool} {d : Definition}
    (mem : d ∈ p.selected includeLtlDefinitions) : d ∈ p.all := by
  rw [all, List.append_assoc]
  rcases List.mem_append.1 mem with mem | mem
  · exact List.mem_append_left _ mem
  · cases includeLtlDefinitions with
    | false => cases mem
    | true => exact List.mem_append_right _ (List.mem_append_left _ mem)

theorem isNamed_withoutIds : p.withoutIds.IsNamed ↔ p.IsNamed := by
  rw [IsNamed, all_withoutIds, List.forall_mem_map]
  exact forall₂_congr fun d _ => Expression.slotNamed_withoutIds d.expression

theorem referredNames_withoutIds : p.withoutIds.referredNames = p.referredNames := by
  rw [referredNames, all_withoutIds, List.flatMap_map]
  exact congrArg (List.flatMap · p.all)
    (funext fun d => Expression.slotReferredNames_withoutIds d.expression)

end PropertyModel

/-! ## Batches -/

namespace Batch

/-- The definitions of a copy without identities are assembled to the same formulas. -/
theorem assembleAll_withoutIds {ds : List Definition} (named : ∀ d ∈ ds, d.IsNamed) (limit : Nat)
    (r : Registry) :
    (assembleAll limit (ds.map Definition.withoutIds)).run r =
      (((assembleAll limit ds).run r).1.map (Prod.map Definition.withoutIds id),
        ((assembleAll limit ds).run r).2) := by
  induction ds generalizing r with
  | nil => rfl
  | cons d ds ih =>
    rw [List.forall_mem_cons] at named
    rw [List.map_cons, assembleAll, run_bind_eq, run_bind_eq,
      Definition.assemble_withoutIds named.1, ih named.2]
    rfl

/-- The outcome of a batch, told from its assembled definitions and the registry. -/
def outcomeOf (result : List Assembled × Registry) : BatchOutcome where
  formulas := result.1.filterMap Assembled.translated?
  failures := result.1.filterMap Assembled.failure?
  stats := {
    definitionCount := result.1.length
    convertedCount := (result.1.filterMap Assembled.translated?).length
    failedCount := (result.1.filterMap Assembled.failure?).length
    propositionCount := result.2.size
    totalTimeMs := 0 }
  error := none

theorem translateModel_eq (config : BatchConfig) (p : PropertyModel) (r : Registry) :
    ((translateModel config p).run r).1 =
      outcomeOf ((assembleAll config.maxExpressionDepth.toNat
        (p.selected config.includeLtlDefinitions)).run ∅) := rfl

theorem outcomeOf_map_withoutIds (assembled : List Assembled) (r : Registry) :
    outcomeOf (assembled.map (Prod.map Definition.withoutIds id), r) = outcomeOf (assembled, r) := by
  have translated : (fun a : Assembled => Assembled.translated? (a.map Definition.withoutIds id)) =
      Assembled.translated? := by
    funext ⟨d, result⟩
    cases result <;> rfl
  have failed : (fun a : Assembled => Assembled.failure? (a.map Definition.withoutIds id)) =
      Assembled.failure? := by
    funext ⟨d, result⟩
    cases result <;> rfl
  simp only [outcomeOf, List.filterMap_map, List.length_map, Function.comp_def, translated, failed]

/-- **The outcome of a batch does not depend on identities,** if every term has a name and every
literal a value. -/
theorem translateModel_withoutIds {p : PropertyModel} (named : p.IsNamed) (config : BatchConfig)
    (r : Registry) :
    ((translateModel config p.withoutIds).run r).1 = ((translateModel config p).run r).1 := by
  have selected : p.withoutIds.selected config.includeLtlDefinitions =
      (p.selected config.includeLtlDefinitions).map Definition.withoutIds := by
    rw [PropertyModel.selected, PropertyModel.selected, List.map_append]
    cases config.includeLtlDefinitions <;> rfl
  have inside : ∀ d ∈ p.selected config.includeLtlDefinitions, d.IsNamed :=
    fun d mem => named d (PropertyModel.mem_all_of_mem_selected mem)
  rw [translateModel_eq, translateModel_eq, selected, assembleAll_withoutIds inside,
    outcomeOf_map_withoutIds]
  rfl

end Batch
end ActorLtl
