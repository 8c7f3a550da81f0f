/-
# Calls are their names

A call that is not temporal is the proposition of its name, and a canonical text shows of a call
nothing but the name.  So the arguments of a call never tell two propositions apart, neither where
the call stands alone nor inside an opaque expression; the name always does, except at a place
inside the arguments of another call.
-/

import ActorLtl.Expression.Alike
import ActorLtl.Proofs.Frames
import ActorLtl.Proofs.Identity

namespace ActorLtl

/-- Whether a call of this name is no temporal operator and no anonymous term. -/
def IsPredicateName (name : String) : Prop := name ≠ "" ∧ name ∉ TemporalCall.letters

namespace Expression

/-- The call `name(arguments)`. -/
abbrev call (id : NodeId) (name : String) (arguments : List Expression) : Expression :=
  term id (some name) (some arguments)

theorem canonical_call (id : NodeId) (name : String) (arguments : List Expression) :
    (call id name arguments).canonical = name := by
  simp [canonical, piecesOnto, String.join_cons]

theorem propositionName?_call {name : String} (h : IsPredicateName name) (id : NodeId)
    (arguments : List Expression) : (call id name arguments).propositionName? = some name := by
  cases arguments with
  | nil => simp [propositionName?, h.1]
  | cons first more => simp [propositionName?, h.1, h.2]

/-- **Predicate calls are told apart by their names alone.**  Two calls converted one after the
other, with no reset but whatever else in between, are the same proposition exactly if their names
are the same.  So are two opaque expressions that differ in the call at one place, unless the place
is inside the arguments of a call; then they are the same proposition in any case. -/
theorem call_identity (f g : String) (hf : IsPredicateName f) (hg : IsPredicateName g)
    (arguments arguments' : List Expression) (id id' : NodeId) (r s : Registry) :
    (s.Extends ((call id f arguments).convert.run r).2 →
      ∃ i j, ((call id f arguments).convert.run r).1 = .atom i ∧
        ((call id' g arguments').convert.run s).1 = .atom j ∧ (i = j ↔ f = g)) ∧
    ∀ c : Context, (c.fill (call id f arguments)).isOpaque →
      (c.fill (call id' g arguments')).isOpaque →
      s.Extends ((c.fill (call id f arguments)).convert.run r).2 →
      ∃ i j, ((c.fill (call id f arguments)).convert.run r).1 = .atom i ∧
        ((c.fill (call id' g arguments')).convert.run s).1 = .atom j ∧
        (i = j ↔ c.isInArguments ∨ f = g) := by
  constructor
  · exact exists_atoms_of_propositionName? (propositionName?_call hf id arguments)
      (propositionName?_call hg id' arguments')
  · intro c whole whole' after
    obtain ⟨i, j, made, made', same⟩ := exists_atoms_of_propositionName?
      (propositionName?_of_isOpaque whole) (propositionName?_of_isOpaque whole') after
    refine ⟨i, j, made, made', same.trans ?_⟩
    rw [Context.canonical_fill_eq_iff, canonical_call, canonical_call]

/-- Calls of three names at once: two calls of one name, and one of another inside a comparison. -/
theorem call_identity_hungry :
    let c := Context.binaryLeft "==" .hole (some (.literal 4 (some "1")))
    let arguments := [Expression.term 0 (some "phil0") none]
    let first := c.fill (call 1 "isHungry" arguments)
    let second := c.fill (call 2 "isEating" [])
    IsPredicateName "isHungry" ∧ IsPredicateName "isEating" ∧ first.isOpaque ∧ second.isOpaque ∧
      ∃ i j, (first.convert.run ∅).1 = .atom i ∧
        (second.convert.run (first.convert.run ∅).2).1 = .atom j ∧ i ≠ j := by
  intro c arguments first second
  have hungry : IsPredicateName "isHungry" := ⟨by decide, by decide⟩
  have eating : IsPredicateName "isEating" := ⟨by decide, by decide⟩
  have whole : first.isOpaque := by decide
  have whole' : second.isOpaque := by decide
  obtain ⟨i, j, made, made', same⟩ := (call_identity "isHungry" "isEating" hungry eating
    arguments [] 1 2 ∅ (first.convert.run ∅).2).2 c whole whole' (Registry.Extends.refl _)
  refine ⟨hungry, eating, whole, whole', i, j, made, made', fun equal => ?_⟩
  have := same.1 equal
  revert this
  decide

/-- **Different arguments, one proposition.**  `isHungry(phil0)` and `isHungry(phil1)`, converted
one after the other, are both the proposition `isHungry`, and the comparisons of both with `1` are
one proposition as well. -/
theorem calls_merge :
    let arguments := [Expression.term 0 (some "phil0") none]
    let arguments' := [Expression.term 2 (some "phil1") none]
    let first := call 1 "isHungry" arguments
    let second := call 3 "isHungry" arguments'
    let compare := fun e => Expression.binary "==" (some e) (some (.literal 4 (some "1")))
    IsPredicateName "isHungry" ∧ listWithoutIds arguments ≠ listWithoutIds arguments' ∧
      (first.convert.run ∅).1 = .atom 1 ∧
      (second.convert.run (first.convert.run ∅).2).1 = .atom 1 ∧
      ((compare first).convert.run ∅).1 = .atom 3 ∧
      ((compare second).convert.run ((compare first).convert.run ∅).2).1 = .atom 3 := by
  intro arguments arguments' first second compare
  have hungry : IsPredicateName "isHungry" := ⟨by decide, by decide⟩
  have text : (compare first).propositionName? = some "(isHungry == 1)" := by decide +kernel
  have text' : (compare second).propositionName? = some "(isHungry == 1)" := by decide +kernel
  refine ⟨hungry, by simp [arguments, arguments', listWithoutIds, withoutIds], ?_, ?_, ?_, ?_⟩
  · apply convert_eq_atom (propositionName?_call hungry 1 arguments)
    rw [nameList_convert]
    decide +kernel
  · apply convert_eq_atom (propositionName?_call hungry 3 arguments')
    rw [nameList_convert, nameList_convert]
    decide +kernel
  · apply convert_eq_atom text
    rw [nameList_convert]
    decide +kernel
  · apply convert_eq_atom text'
    rw [nameList_convert, nameList_convert]
    decide +kernel

end Expression
end ActorLtl
