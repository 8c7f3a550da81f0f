/-
# Places in an expression

A place is a context: an expression with one hole, in any slot of any kind of node and at any depth.
What fills the hole stands in the whole expression (`Expression.StandsIn`): it is all of it, or
stands in one of its children (`Expression.standsIn_iff_children`).
-/

import ActorLtl.Expression

namespace ActorLtl

/-- An expression with one hole. -/
inductive Context where
  | hole
  | binaryLeft (operator : String) (inner : Context) (right : Option Expression)
  | binaryRight (operator : String) (left : Option Expression) (inner : Context)
  | unary (operator : String) (inner : Context)
  | memberLeft (inner : Context) (right : Option Expression)
  | memberRight (left : Option Expression) (inner : Context)
  /-- The hole is inside an argument of a call. -/
  | argument (id : NodeId) (name : Option String) (before : List Expression) (inner : Context)
      (after : List Expression)
  | ternaryCondition (inner : Context) (thenPart elsePart : Option Expression)
  | ternaryThen (condition : Option Expression) (inner : Context) (elsePart : Option Expression)
  | ternaryElse (condition thenPart : Option Expression) (inner : Context)
  | group (inner : Context)
  | cast (targetType : String) (inner : Context)
  | typeTest (typeName : String) (inner : Context)
  | choice (before : List Expression) (inner : Context) (after : List Expression)

namespace Context

/-- The expression with the hole filled. -/
def fill : Context → Expression → Expression
  | hole, e => e
  | binaryLeft operator inner right, e => .binary operator (some (inner.fill e)) right
  | binaryRight operator left inner, e => .binary operator left (some (inner.fill e))
  | unary operator inner, e => .unary operator (some (inner.fill e))
  | memberLeft inner right, e => .member (some (inner.fill e)) right
  | memberRight left inner, e => .member left (some (inner.fill e))
  | argument id name before inner after, e => .term id name (some (before ++ inner.fill e :: after))
  | ternaryCondition inner thenPart elsePart, e => .ternary (some (inner.fill e)) thenPart elsePart
  | ternaryThen condition inner elsePart, e => .ternary condition (some (inner.fill e)) elsePart
  | ternaryElse condition thenPart inner, e => .ternary condition thenPart (some (inner.fill e))
  | group inner, e => .group (some (inner.fill e))
  | cast targetType inner, e => .cast targetType (some (inner.fill e))
  | typeTest typeName inner, e => .typeTest typeName (some (inner.fill e))
  | choice before inner after, e => .choice (before ++ inner.fill e :: after)

/-- Whether the hole is inside the arguments of a call. -/
def isInArguments : Context → Bool
  | hole => false
  | argument .. => true
  | binaryLeft _ inner _ | binaryRight _ _ inner | unary _ inner | memberLeft inner _
  | memberRight _ inner | ternaryCondition inner _ _ | ternaryThen _ inner _
  | ternaryElse _ _ inner | group inner | cast _ inner | typeTest _ inner
  | choice _ inner _ => inner.isInArguments

end Context

namespace Expression

variable {part child whole : Expression}

/-- Whether an expression stands anywhere in another, or is all of it. -/
def StandsIn (part whole : Expression) : Prop := ∃ c : Context, c.fill part = whole

theorem StandsIn.refl (e : Expression) : StandsIn e e := ⟨.hole, rfl⟩

/-- What stands in a child stands in the node. -/
theorem StandsIn.of_mem_children (h : StandsIn part child) (mem : child ∈ whole.children) :
    StandsIn part whole := by
  obtain ⟨c, rfl⟩ := h
  cases whole with
  | binary operator left right =>
    rcases List.mem_append.1 mem with mem | mem <;> obtain rfl := Option.mem_toList.1 mem
    · exact ⟨.binaryLeft operator c right, rfl⟩
    · exact ⟨.binaryRight operator left c, rfl⟩
  | unary operator operand =>
    obtain rfl := Option.mem_toList.1 mem
    exact ⟨.unary operator c, rfl⟩
  | member left right =>
    rcases List.mem_append.1 mem with mem | mem <;> obtain rfl := Option.mem_toList.1 mem
    · exact ⟨.memberLeft c right, rfl⟩
    · exact ⟨.memberRight left c, rfl⟩
  | term id name arguments =>
    cases arguments with
    | none => exact absurd mem List.not_mem_nil
    | some arguments =>
      obtain ⟨before, after, rfl⟩ := List.append_of_mem (show c.fill part ∈ arguments from mem)
      exact ⟨.argument id name before c after, rfl⟩
  | literal _ _ => exact absurd mem List.not_mem_nil
  | ternary condition thenPart elsePart =>
    rcases List.mem_append.1 mem with mem | mem
    · rcases List.mem_append.1 mem with mem | mem <;> obtain rfl := Option.mem_toList.1 mem
      · exact ⟨.ternaryCondition c thenPart elsePart, rfl⟩
      · exact ⟨.ternaryThen condition c elsePart, rfl⟩
    · obtain rfl := Option.mem_toList.1 mem
      exact ⟨.ternaryElse condition thenPart c, rfl⟩
  | group inner =>
    obtain rfl := Option.mem_toList.1 mem
    exact ⟨.group c, rfl⟩
  | cast targetType inner =>
    obtain rfl := Option.mem_toList.1 mem
    exact ⟨.cast targetType c, rfl⟩
  | typeTest typeName inner =>
    obtain rfl := Option.mem_toList.1 mem
    exact ⟨.typeTest typeName c, rfl⟩
  | choice choices =>
    obtain ⟨before, after, rfl⟩ := List.append_of_mem (show c.fill part ∈ choices from mem)
    exact ⟨.choice before c after, rfl⟩

/-- **What stands in an expression is all of it, or stands in a child.** -/
theorem standsIn_iff_children :
    StandsIn part whole ↔ part = whole ∨ ∃ child ∈ whole.children, StandsIn part child := by
  constructor
  · rintro ⟨c, rfl⟩
    cases c with
    | hole => exact .inl rfl
    | binaryLeft _ inner _ | binaryRight _ _ inner | unary _ inner | memberLeft inner _
    | memberRight _ inner | argument _ _ _ inner _ | ternaryCondition inner _ _
    | ternaryThen _ inner _ | ternaryElse _ _ inner | group inner | cast _ inner | typeTest _ inner
    | choice _ inner _ =>
      exact .inr ⟨inner.fill part, by simp [Context.fill, children], inner, rfl⟩
  · rintro (rfl | ⟨child, mem, inside⟩)
    · exact .refl part
    · exact inside.of_mem_children mem

end Expression
end ActorLtl
