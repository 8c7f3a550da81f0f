/-
# What a canonical text shows of a place

What fills the hole of a context stands in the canonical text between two fixed parts
(`Context.frames_fill`), or not at all if the hole is inside arguments.  So a filled context shows
the canonical text of what fills it, and nothing else of it (`Context.canonical_fill_eq_iff`).
-/

import ActorLtl.Expression.Canonical
import ActorLtl.Expression.Context

namespace ActorLtl

namespace Expression

theorem morePiecesOnto_append (es fs : List Expression) (rest : List String) :
    morePiecesOnto (es ++ fs) rest = morePiecesOnto es (morePiecesOnto fs rest) := by
  induction es with
  | nil => rfl
  | cons e es ih => simp [morePiecesOnto, ih]

/-- Whether a way to build a node puts the text of its operand between two fixed parts. -/
def Frames (node : Expression → Expression) : Prop :=
  ∃ before after : List String, ∀ (e : Expression) (rest : List String),
    (node e).piecesOnto rest = before ++ e.piecesOnto (after ++ rest)

theorem Frames.comp {outer inner : Expression → Expression} (h : Frames outer)
    (h' : Frames inner) : Frames fun e => outer (inner e) := by
  obtain ⟨before, after, split⟩ := h
  obtain ⟨before', after', split'⟩ := h'
  refine ⟨before ++ before', after' ++ after, fun e rest => ?_⟩
  rw [split, split', List.append_assoc, List.append_assoc]

section Frames

variable (operator name : String) (left right third : Option Expression)

theorem frames_binaryLeft : Frames fun e => .binary operator (some e) right := by
  refine ⟨["("], " " :: operator :: " " :: (slotPiecesOnto right [] ++ [")"]), fun e rest => ?_⟩
  simp only [piecesOnto, slotPiecesOnto]
  rw [slotPiecesOnto_eq right]
  simp

theorem frames_binaryRight : Frames fun e => .binary operator left (some e) := by
  refine ⟨"(" :: (slotPiecesOnto left [] ++ [" ", operator, " "]), [")"], fun e rest => ?_⟩
  simp only [piecesOnto, slotPiecesOnto]
  rw [slotPiecesOnto_eq left]
  simp

theorem frames_unary : Frames fun e => .unary operator (some e) :=
  ⟨[operator, "("], [")"], fun e rest => by simp [piecesOnto, slotPiecesOnto]⟩

theorem frames_memberLeft : Frames fun e => .member (some e) right := by
  refine ⟨[], "." :: slotPiecesOnto right [], fun e rest => ?_⟩
  simp only [piecesOnto, slotPiecesOnto]
  rw [slotPiecesOnto_eq right]
  simp

theorem frames_memberRight : Frames fun e => .member left (some e) := by
  refine ⟨slotPiecesOnto left [] ++ ["."], [], fun e rest => ?_⟩
  simp only [piecesOnto, slotPiecesOnto]
  rw [slotPiecesOnto_eq left]
  simp

theorem frames_ternaryCondition : Frames fun e => .ternary (some e) right third := by
  refine ⟨["ternary", "("],
    ", " :: (slotPiecesOnto right [] ++ ", " :: (slotPiecesOnto third [] ++ [")"])),
    fun e rest => ?_⟩
  simp only [piecesOnto, slotPiecesOnto]
  rw [slotPiecesOnto_eq right, slotPiecesOnto_eq third]
  simp

theorem frames_ternaryThen : Frames fun e => .ternary left (some e) third := by
  refine ⟨"ternary" :: "(" :: (slotPiecesOnto left [] ++ [", "]),
    ", " :: (slotPiecesOnto third [] ++ [")"]), fun e rest => ?_⟩
  simp only [piecesOnto, slotPiecesOnto]
  rw [slotPiecesOnto_eq left, slotPiecesOnto_eq third]
  simp

theorem frames_ternaryElse : Frames fun e => .ternary left right (some e) := by
  refine ⟨"ternary" :: "(" ::
      (slotPiecesOnto left [] ++ ", " :: (slotPiecesOnto right [] ++ [", "])),
    [")"], fun e rest => ?_⟩
  simp only [piecesOnto, slotPiecesOnto]
  rw [slotPiecesOnto_eq left, slotPiecesOnto_eq right]
  simp

theorem frames_group : Frames fun e => .group (some e) :=
  ⟨["arithmetic_group", "("], [")"], fun e rest => by simp [piecesOnto, slotPiecesOnto]⟩

theorem frames_cast : Frames fun e => .cast name (some e) :=
  ⟨["cast", "<", name, ">", "("], [")"], fun e rest => by simp [piecesOnto, slotPiecesOnto]⟩

theorem frames_typeTest : Frames fun e => .typeTest name (some e) :=
  ⟨["type_test", "<", name, ">", "("], [")"], fun e rest => by simp [piecesOnto, slotPiecesOnto]⟩

theorem frames_choice (before after : List Expression) :
    Frames fun e => .choice (before ++ e :: after) := by
  cases before with
  | nil =>
    refine ⟨["non_deterministic_choice", "("], morePiecesOnto after [] ++ [")"], fun e rest => ?_⟩
    simp only [List.nil_append, piecesOnto]
    rw [morePiecesOnto_eq after]
    simp
  | cons first before =>
    refine ⟨"non_deterministic_choice" :: "(" ::
      (first.piecesOnto [] ++ (morePiecesOnto before [] ++ [", "])),
      morePiecesOnto after [] ++ [")"], fun e rest => ?_⟩
    simp only [List.cons_append, piecesOnto]
    rw [morePiecesOnto_append, piecesOnto_eq first, morePiecesOnto_eq before, morePiecesOnto,
      morePiecesOnto_eq after]
    simp

end Frames

end Expression

namespace Context

open Expression

/-- **What fills the hole stands between two fixed parts of the text,** unless the hole is inside
arguments. -/
theorem frames_fill (c : Context) (h : c.isInArguments = false) : Frames c.fill := by
  induction c with
  | hole => exact ⟨[], [], fun _ _ => rfl⟩
  | binaryLeft operator inner right ih => exact (frames_binaryLeft operator right).comp (ih h)
  | binaryRight operator left inner ih => exact (frames_binaryRight operator left).comp (ih h)
  | unary operator inner ih => exact (frames_unary operator).comp (ih h)
  | memberLeft inner right ih => exact (frames_memberLeft right).comp (ih h)
  | memberRight left inner ih => exact (frames_memberRight left).comp (ih h)
  | argument => cases h
  | ternaryCondition inner thenPart elsePart ih =>
    exact (frames_ternaryCondition thenPart elsePart).comp (ih h)
  | ternaryThen condition inner elsePart ih =>
    exact (frames_ternaryThen condition elsePart).comp (ih h)
  | ternaryElse condition thenPart inner ih =>
    exact (frames_ternaryElse condition thenPart).comp (ih h)
  | group inner ih => exact frames_group.comp (ih h)
  | cast targetType inner ih => exact (frames_cast targetType).comp (ih h)
  | typeTest typeName inner ih => exact (frames_typeTest typeName).comp (ih h)
  | choice before inner after ih => exact (frames_choice before after).comp (ih h)

/-- **What fills a hole inside arguments is not in the text.** -/
theorem piecesOnto_fill_of_isInArguments (c : Context) (h : c.isInArguments) (e e' : Expression)
    (rest : List String) : (c.fill e).piecesOnto rest = (c.fill e').piecesOnto rest := by
  induction c generalizing rest with
  | hole => cases h
  | argument id name before inner after => rfl
  | choice before inner after ih =>
    cases before with
    | nil => simp [fill, piecesOnto, ih h]
    | cons first before =>
      simp [fill, piecesOnto, morePiecesOnto_append, morePiecesOnto, ih h]
  | _ => simp_all [fill, piecesOnto, slotPiecesOnto, isInArguments]

/-- **A filled context shows what fills it,** and nothing but its text. -/
theorem canonical_fill_eq_iff (c : Context) (e e' : Expression) :
    (c.fill e).canonical = (c.fill e').canonical ↔
      c.isInArguments ∨ e.canonical = e'.canonical := by
  by_cases hidden : c.isInArguments
  · have same : (c.fill e).canonical = (c.fill e').canonical := by
      rw [canonical, canonical, piecesOnto_fill_of_isInArguments c hidden e e']
    simp [same, hidden]
  · obtain ⟨before, after, split⟩ := frames_fill c (by simpa using hidden)
    have text : ∀ e, (c.fill e).canonical =
        String.join before ++ (e.canonical ++ String.join after) := by
      intro e
      rw [canonical, split, piecesOnto_eq, String.join_append, String.join_append,
        List.append_nil, ← canonical]
    rw [text, text, String.append_right_inj, String.append_left_inj]
    simp [hidden]

end Context

end ActorLtl
