/-
# Spelling does not matter outside opaque nodes

The two spellings of a connective make the same formula, and a temporal operator with one operand
makes it in both of its forms.  So respellings of one another (`Expression.Respelled`) are converted
by the same steps: at each place the operands are respellings again, and no canonical text is taken,
since a node whose text is its name is not respelled inside (`Expression.Respelled.convert_eq`).
They are also nested equally deeply, so the depth limit does not tell them apart either
(`Expression.Respelled.assemble_eq`).
-/

import ActorLtl.Definition
import ActorLtl.Expression.Keys
import ActorLtl.Expression.Respelling
import ActorLtl.Proofs.Depth

namespace ActorLtl

variable {connectives : List (List String)} {spelling spelling' : String}

namespace SpeltAlike

theorem mem_flatten (alike : SpeltAlike connectives spelling spelling') :
    spelling ∈ connectives.flatten ∧ spelling' ∈ connectives.flatten := by
  obtain ⟨spellings, connective, first, second⟩ := alike
  exact ⟨List.mem_flatten.2 ⟨spellings, connective, first⟩,
    List.mem_flatten.2 ⟨spellings, connective, second⟩⟩

/-- **The spellings of a connective between operands make the same formula.** -/
theorem between?_eq (alike : SpeltAlike BinaryOperator.connectives spelling spelling')
    (left right : Formula) : left.between? right spelling = left.between? right spelling' := by
  have each : ∀ spellings ∈ BinaryOperator.connectives,
      ∃ f, ∀ s ∈ spellings, left.between? right s = some f := by
    simp [BinaryOperator.connectives, Formula.between?]
  obtain ⟨spellings, connective, first, second⟩ := alike
  obtain ⟨f, made⟩ := each spellings connective
  rw [made spelling first, made spelling' second]

/-- So do those of a connective before an operand. -/
theorem before?_eq (alike : SpeltAlike UnaryOperator.connectives spelling spelling')
    (operand : Formula) : operand.before? spelling = operand.before? spelling' := by
  have each : ∀ spellings ∈ UnaryOperator.connectives,
      ∃ f, ∀ s ∈ spellings, operand.before? s = some f := by
    simp [UnaryOperator.connectives, UnaryOperator.movable, Formula.before?]
  obtain ⟨spellings, connective, first, second⟩ := alike
  obtain ⟨f, made⟩ := each spellings connective
  rw [made spelling first, made spelling' second]

/-- **Both forms of a temporal operator make the same formula,** whatever the right slot holds. -/
theorem before?_eq_between? (alike : SpeltAlike UnaryOperator.movable spelling spelling')
    (operand right : Formula) : operand.before? spelling = operand.between? right spelling' := by
  have each : ∀ spellings ∈ UnaryOperator.movable, ∃ f, ∀ s ∈ spellings,
      operand.before? s = some f ∧ operand.between? right s = some f := by
    simp [UnaryOperator.movable, Formula.before?, Formula.between?]
  obtain ⟨spellings, connective, first, second⟩ := alike
  obtain ⟨f, made⟩ := each spellings connective
  rw [(made spelling first).1, (made spelling' second).2]

/-- What may stand in both forms is a connective in both. -/
theorem mem_connectives (alike : SpeltAlike UnaryOperator.movable spelling spelling') :
    (spelling ∈ UnaryOperator.connectives.flatten ∧ spelling ∈ BinaryOperator.connectives.flatten) ∧
      spelling' ∈ UnaryOperator.connectives.flatten ∧
        spelling' ∈ BinaryOperator.connectives.flatten := by
  have each : ∀ text ∈ UnaryOperator.movable.flatten,
      text ∈ UnaryOperator.connectives.flatten ∧ text ∈ BinaryOperator.connectives.flatten := by
    decide
  exact ⟨each spelling alike.mem_flatten.1, each spelling' alike.mem_flatten.2⟩

theorem symm (alike : SpeltAlike connectives spelling spelling') :
    SpeltAlike connectives spelling' spelling := by
  obtain ⟨spellings, connective, first, second⟩ := alike
  exact ⟨spellings, connective, second, first⟩

end SpeltAlike

namespace Expression

/-- **A connective asks for its operands only.**  Its spelling matters for its formula only. -/
theorem convert_binary (connective : spelling ∈ BinaryOperator.connectives.flatten)
    (left right : Option Expression) :
    convert (.binary spelling left right) = do
      let f ← convertSlot left
      let g ← convertSlot right
      return (f.between? g spelling).getD (.constant false) := by
  rw [convert_binary_eq]
  refine bind_congr fun f => bind_congr fun g => ?_
  obtain ⟨made, formula⟩ : ∃ made, f.between? g spelling = some made := by
    rw [← Option.isSome_iff_exists, Formula.isSome_between?, decide_eq_true_iff]
    exact connective
  rw [formula]
  rfl

/-- So does a connective before its operand. -/
theorem convert_unary (connective : spelling ∈ UnaryOperator.connectives.flatten)
    (operand : Option Expression) :
    convert (.unary spelling operand) = do
      let f ← convertSlot operand
      return (f.before? spelling).getD (.constant false) := by
  rw [convert_unary_eq]
  refine bind_congr fun f => ?_
  obtain ⟨made, formula⟩ : ∃ made, f.before? spelling = some made := by
    rw [← Option.isSome_iff_exists, Formula.isSome_before?, decide_eq_true_iff]
    exact connective
  rw [formula]
  rfl

/-- **Both forms of a temporal operator are converted alike.**  The empty slot is converted as well,
and asks for nothing. -/
theorem convert_unary_eq_binary (alike : SpeltAlike UnaryOperator.movable spelling spelling')
    (operand : Option Expression) :
    convert (.unary spelling operand) = convert (.binary spelling' operand none) := by
  obtain ⟨⟨before, -⟩, -, between⟩ := alike.mem_connectives
  rw [convert_unary before, convert_binary between]
  refine bind_congr fun f => ?_
  rw [alike.before?_eq_between? f (.constant false)]
  rfl

mutual
/-- **Respellings are converted by the same steps.** -/
theorem Respelled.convert_eq {e e' : Expression} : Respelled e e' → convert e = convert e'
  | .same _ => rfl
  | .binary alike left right => by
      obtain ⟨connective, connective'⟩ := alike.mem_flatten
      rw [convert_binary connective, convert_binary connective', left.convert_eq, right.convert_eq]
      simp only [alike.between?_eq]
  | .unary alike operand => by
      obtain ⟨connective, connective'⟩ := alike.mem_flatten
      rw [convert_unary connective, convert_unary connective', operand.convert_eq]
      simp only [alike.before?_eq]
  | .toBinary alike operand => by
      obtain ⟨⟨before, -⟩, -, between⟩ := alike.mem_connectives
      rw [← convert_unary_eq_binary alike, convert_unary before, convert_unary before,
        operand.convert_eq]
  | .toUnary alike operand => by
      obtain ⟨-, before', -⟩ := alike.mem_connectives
      rw [← convert_unary_eq_binary alike.symm, convert_unary before', convert_unary before',
        operand.convert_eq]
  | @Respelled.call _ none _ _ _ => by rw [convert, convert]
  | @Respelled.call _ (some _) _ _ .nil => rfl
  | @Respelled.call _ (some _) _ _ (.cons first _) => by
      -- Of the arguments only the first is converted.
      rw [convert, convert, first.convert_eq]
  | .ternary condition thenPart elsePart => by
      rw [convert, convert, condition.convert_eq, thenPart.convert_eq, elsePart.convert_eq]
/-- So is what slots hold. -/
theorem SlotRespelled.convert_eq {slot slot' : Option Expression} :
    SlotRespelled slot slot' → convertSlot slot = convertSlot slot'
  | .empty => rfl
  | .filled same => same.convert_eq
end

mutual
/-- **Respellings are nested equally deeply.** -/
theorem Respelled.nesting_eq {e e' : Expression} : Respelled e e' → e.nesting = e'.nesting
  | .same _ => rfl
  | .binary _ left right => by rw [nesting, nesting, left.nesting_eq, right.nesting_eq]
  | .unary _ operand => by rw [nesting, nesting, operand.nesting_eq]
  | .toBinary _ operand => by
      rw [nesting, nesting, operand.nesting_eq, slotNesting, Nat.max_zero]
  | .toUnary _ operand => by
      rw [nesting, nesting, operand.nesting_eq, slotNesting, Nat.max_zero]
  | .call arguments => by rw [nesting, nesting, arguments.nesting_eq]
  | .ternary condition thenPart elsePart => by
      rw [nesting, nesting, condition.nesting_eq, thenPart.nesting_eq, elsePart.nesting_eq]
/-- So is what slots hold, -/
theorem SlotRespelled.nesting_eq {slot slot' : Option Expression} :
    SlotRespelled slot slot' → slotNesting slot = slotNesting slot'
  | .empty => rfl
  | .filled same => same.nesting_eq
/-- and what stands in lists. -/
theorem ListRespelled.nesting_eq {es es' : List Expression} :
    ListRespelled es es' → listNesting es = listNesting es'
  | .nil => rfl
  | .cons first others => by
      rw [listNesting, listNesting, first.nesting_eq, others.nesting_eq]
end

/-- **Definitions whose expressions are respellings are assembled alike.** -/
theorem Respelled.assemble_eq {e e' : Expression} (same : Respelled e e') (name : String)
    (limit : Nat) :
    Definition.assemble limit ⟨name, some e⟩ = Definition.assemble limit ⟨name, some e'⟩ := by
  have depth : e.depth = e'.depth := by rw [depth_eq_nesting, depth_eq_nesting, same.nesting_eq]
  have converted : convertSlot (some e) = convertSlot (some e') := same.convert_eq
  have measured : Definition.excessiveDepth? limit ⟨name, some e⟩ =
      Definition.excessiveDepth? limit ⟨name, some e'⟩ := by
    simp only [Definition.excessiveDepth?, Option.bind_some, depth]
  simp only [Definition.assemble, measured, converted]

/-- **Spelling does not matter outside opaque nodes.**  Let two expressions differ only in how
connectives are spelled that stand in no opaque node, and in the form of temporal operators with
one operand there.  Then with any registry they are converted to the same formula and leave the same
registry, and a definition has the same result with either, whatever the depth limit. -/
theorem convert_respelled {e e' : Expression} (same : Respelled e e') (r : Registry) :
    (e'.convert.run r).1 = (e.convert.run r).1 ∧ (e'.convert.run r).2 = (e.convert.run r).2 ∧
      ∀ (name : String) (limit : Nat),
        (Definition.assemble limit ⟨name, some e'⟩).run r =
          (Definition.assemble limit ⟨name, some e⟩).run r := by
  rw [same.convert_eq]
  refine ⟨rfl, rfl, fun name limit => ?_⟩
  rw [same.assemble_eq name limit]

/-- Every operator outside the comparison is spelled the other way, in the arguments of a call as
well, and the operators before one operand stand before an empty slot.  The registry knows a
name. -/
theorem convert_respelled_response :
    let term (id : NodeId) (name : String) : Expression := .term id (some name) none
    let compared : Expression :=
      .binary "==" (some (.binary "and" (some (term 0 "level")) none)) (some (term 1 "full"))
    let e : Expression := .unary "G" (some (.binary "->" (some compared)
      (some (.term 2 (some "asked") (some [.unary "F" (some (term 3 "open")),
        .binary "release" none none])))))
    let e' : Expression := .binary "globally" (some (.binary "implies" (some compared)
      (some (.term 2 (some "asked") (some [.binary "finally" (some (term 3 "open")) none,
        .binary "R" none none]))))) none
    let r := (Registry.empty.intern "open").2
    Respelled e e' ∧ (e'.convert.run r).1 = (e.convert.run r).1 ∧
      (e'.convert.run r).2 = (e.convert.run r).2 ∧
      (Definition.assemble 4 ⟨"Response", some e'⟩).run r =
        (Definition.assemble 4 ⟨"Response", some e⟩).run r := by
  intro term compared e e' r
  have arguments : ListRespelled
      [.unary "F" (some (term 3 "open")), .binary "release" none none]
      [.binary "finally" (some (term 3 "open")) none, .binary "R" none none] :=
    .cons (.toBinary (by decide) (.filled (.same _)))
      (.cons (.binary (by decide) .empty .empty) .nil)
  have same : Respelled e e' :=
    .toBinary (by decide)
      (.filled (.binary (by decide) (.filled (.same compared)) (.filled (.call arguments))))
  obtain ⟨formula, registry, assembled⟩ := convert_respelled same r
  exact ⟨same, formula, registry, assembled "Response" 4⟩

/-- Inside an opaque node the spelling is part of the name. -/
example : canonical (.group (some (.binary "and" none none))) ≠
    canonical (.group (some (.binary "&&" none none))) := by decide

end Expression
end ActorLtl
