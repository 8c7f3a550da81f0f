/-
# What assembly refuses

Assembly has two ways to refuse a definition, and only one of them ever happens.  A definition
beyond the depth limit gets the error that says so, and the registry is what it was
(`Definition.assemble_of_not_isWithin`); any other gets its formula, and its keys are interned
(`Definition.assemble_of_isWithin`).  That every proposition has a name is said here of the
propositions that the formula mentions (`Formula.Mentions`), not of the list that assembly itself
goes through; the two are the same (`Formula.mem_atoms_iff_mentions`).
-/

import ActorLtl.Definition.Limit
import ActorLtl.Formula.Operands
import ActorLtl.Proofs.Assembly

namespace ActorLtl
namespace Formula

variable {i : Nat}

/-- The propositions of a formula are itself, if it is one, and those of its operands. -/
theorem mem_atoms_iff_operands {f : Formula} :
    i ∈ f.atoms ↔ f = .atom i ∨ ∃ g ∈ f.operands, i ∈ g.atoms := by
  cases f <;> simp [operands, eq_comm]

theorem mentions_of_mem_atoms (f : Formula) (h : i ∈ f.atoms) : f.Mentions i := by
  rcases mem_atoms_iff_operands.1 h with rfl | ⟨g, operand, mem⟩
  · exact .atom
  · have := sizeOf_lt_of_mem_operands operand
    exact .operand operand (mentions_of_mem_atoms g mem)
termination_by sizeOf f

/-- **What is listed is what is mentioned.** -/
theorem mem_atoms_iff_mentions {f : Formula} : i ∈ f.atoms ↔ f.Mentions i := by
  constructor
  · exact mentions_of_mem_atoms f
  · intro h
    -- One step of `Mentions` is one operand, whatever the operator.
    induction h with
    | atom => exact mem_atoms_atom.2 rfl
    | operand operand _ ih => exact mem_atoms_iff_operands.2 (.inr ⟨_, operand, ih⟩)

end Formula

namespace Definition

variable {limit : Nat} {d : Definition}

/-- A definition beyond the limit is refused with its depth, and the registry stays. -/
theorem assemble_of_not_isWithin (deep : ¬ d.IsWithin limit) (r : Registry) :
    ∃ e, d.expression = some e ∧ limit < e.depth ∧
      (d.assemble limit).run r = (.error (.depthExceeded d.name e.depth limit), r) := by
  obtain ⟨e, expression, exceeds, excessive⟩ := exists_excessiveDepth? deep
  exact ⟨e, expression, exceeds, assemble_of_excessiveDepth? excessive r⟩

/-- The formula of a definition, if registry `after` gives out the numbers. -/
def labelled (d : Definition) (after : Registry) : LabelledFormula where
  formula := Expression.slotFormula after.number d.expression
  propositions := after.nameList

/-- A definition within the limit has its formula, and its keys are interned. -/
theorem assemble_of_isWithin (within : d.IsWithin limit) (r : Registry) :
    (d.assemble limit).run r =
      (.ok (d.labelled (r.internAll (Expression.slotKeys d.expression))),
        r.internAll (Expression.slotKeys d.expression)) :=
  assemble_run (excessiveDepth?_eq_none_iff.2 within) r

/-- **Every proposition of an assembled formula has a name.** -/
theorem lt_length_of_mentions {r : Registry} {i : Nat}
    (h : (d.labelled (r.internAll (Expression.slotKeys d.expression))).formula.Mentions i) :
    i < (d.labelled (r.internAll (Expression.slotKeys d.expression))).propositions.length := by
  obtain ⟨name, key, rfl⟩ :=
    Expression.exists_key_of_mem_atoms (Formula.mem_atoms_iff_mentions.2 h)
  have known : name ∈ (r.internAll (Expression.slotKeys d.expression)).nameList :=
    Registry.mem_nameList_internAll.2 (.inr key)
  exact Registry.number_lt known

/-- **Only depth is refused, and a refusal leaves no trace.**  Assembly fails exactly if the
definition has an expression that is nested more deeply than the limit; the error then tells the
definition's name, the depth and the limit, and the registry is what it was.  A proposition is
never without a name.  Otherwise there is a formula, which mentions only propositions that its
list of names reaches; the list is the registry's afterwards, without repetitions, and begins with
the names that the registry had before. -/
theorem assemble_refuses_only_depth (limit : Nat) (d : Definition) (r : Registry) :
    let result := ((d.assemble limit).run r).1
    let after := ((d.assemble limit).run r).2
    (∀ cause, result = .error cause ↔ ∃ e, d.expression = some e ∧ limit < e.depth ∧
        cause = .depthExceeded d.name e.depth limit) ∧
      (∀ cause, result = .error cause → after = r) ∧
      (∀ subject index available,
        result ≠ .error (.danglingProposition subject index available)) ∧
      ((∃ f, result = .ok f) ↔ ∀ e, d.expression = some e → e.depth ≤ limit) ∧
      ∀ f, result = .ok f →
        (∀ i, f.formula.Mentions i → i < f.propositions.length) ∧ f.propositions.Nodup ∧
          f.propositions = after.nameList ∧ r.nameList <+: f.propositions := by
  by_cases within : d.IsWithin limit
  · rw [assemble_of_isWithin within]
    refine ⟨fun cause => ⟨nofun, ?_⟩, nofun, nofun, ⟨fun _ => within, fun _ => ⟨_, rfl⟩⟩, ?_⟩
    · rintro ⟨e, expression, exceeds, -⟩
      exact absurd (within e expression) (Nat.not_le_of_lt exceeds)
    · rintro f ⟨⟩
      exact ⟨fun i => lt_length_of_mentions, Registry.names_nodup _, rfl,
        Registry.internAll_extends _ _⟩
  · obtain ⟨e, expression, exceeds, refused⟩ := assemble_of_not_isWithin within r
    rw [refused]
    refine ⟨fun cause => ⟨?_, ?_⟩, fun _ _ => rfl, nofun, ⟨nofun, fun h => absurd h within⟩, nofun⟩
    · rintro ⟨⟩
      exact ⟨e, expression, exceeds, rfl⟩
    · rintro ⟨e', expression', -, rfl⟩
      cases expression.symm.trans expression'
      rfl

/-- Of two definitions over one registry the limit refuses the first. -/
theorem assemble_refuses_only_depth_negation :
    let y : Expression := .term 0 (some "y") none
    let deep : Definition := ⟨"deep", some (.unary "!" (some y))⟩
    let one : Definition := ⟨"one", some y⟩
    let r : Registry := (Registry.empty.intern "x").2
    (deep.assemble 1).run r = (.error (.depthExceeded "deep" 2 1), r) ∧
      ∃ f, ((one.assemble 1).run r).1 = .ok f ∧ f.propositions.Nodup ∧
        r.nameList <+: f.propositions := by
  intro y deep one r
  have two : (Expression.unary "!" (some y)).depth = 2 := by
    simp [y, Expression.depth, Expression.fold_eq_foldl, Expression.nodes, Expression.slotNodes]
  have single : y.depth = 1 := by
    simp [y, Expression.depth, Expression.fold_eq_foldl, Expression.nodes]
  obtain ⟨errors, untouched, -⟩ := assemble_refuses_only_depth 1 deep r
  obtain ⟨-, -, -, succeeds, labels⟩ := assemble_refuses_only_depth 1 one r
  have refused : ((deep.assemble 1).run r).1 = .error (.depthExceeded "deep" 2 1) :=
    (errors _).2 ⟨_, rfl, by rw [two]; decide, by rw [two]⟩
  obtain ⟨f, assembled⟩ := succeeds.2 fun e here => by
    cases here
    exact Nat.le_of_eq single
  obtain ⟨-, nodup, -, before⟩ := labels f assembled
  exact ⟨Prod.ext refused (untouched _ refused), f, assembled, nodup, before⟩

end Definition
end ActorLtl
