/-
# What a batch does not depend on

The formulas of a batch, with their numbers and their lists of names, depend on the definitions
that have formulas and on nothing else: not on what the registry held before, not on definitions
that are left out, not on definitions that come later, and not on assertions.  All four follow
from what a batch makes of its accepted definitions (`Batch.formulas_translateModel`).
-/

import ActorLtl.Proofs.Partition

namespace ActorLtl
namespace Batch

variable {config config' : BatchConfig} {p p' : PropertyModel} {more : List Definition}

/-- Thinning a property model leaves the accepted definitions. -/
theorem accepted_of_thinned (h : p.Thinned config.maxExpressionDepth.toNat p') :
    accepted config p' = accepted config p :=
  (h.selected config.includeLtlDefinitions).filter_isWithin

/-- What is appended to the selected definitions is accepted after all others. -/
theorem accepted_of_append (limit : config'.maxExpressionDepth = config.maxExpressionDepth)
    (appended : p'.selected config'.includeLtlDefinitions =
      p.selected config.includeLtlDefinitions ++ more) :
    accepted config' p' = accepted config p ++
      more.filter (·.IsWithin config.maxExpressionDepth.toNat) := by
  rw [accepted, appended, limit, List.filter_append]
  rfl

/-- **Definitions at the end change nothing before them:** the formulas and the failures go on
where they have ended. -/
theorem prefix_of_append (limit : config'.maxExpressionDepth = config.maxExpressionDepth)
    (appended : p'.selected config'.includeLtlDefinitions =
      p.selected config.includeLtlDefinitions ++ more) (r r' : Registry) :
    ((translateModel config p).run r).1.formulas <+:
        ((translateModel config' p').run r').1.formulas ∧
      ((translateModel config p).run r).1.failures <+:
        ((translateModel config' p').run r').1.failures := by
  constructor
  · rw [formulas_translateModel, formulas_translateModel, accepted_of_append limit appended,
      formulasFrom_append]
    exact List.prefix_append ..
  · rw [failures_translateModel, failures_translateModel, appended, limit, List.filterMap_append]
    exact List.prefix_append ..

/-- Selecting the LTL definitions appends them or, if they are selected anyway, nothing. -/
theorem selected_true (p : PropertyModel) (includeLtlDefinitions : Bool) :
    p.selected true = p.selected includeLtlDefinitions ++
      if includeLtlDefinitions then [] else p.ltlDefinitions := by
  cases includeLtlDefinitions <;> simp [PropertyModel.selected]

/-- **A batch depends on nothing but the definitions it translates.**  It gives the same outcome
and leaves the same registry whatever the registry held before; without any of the definitions
that are nested too deeply it gives the same formulas, with the same numbers and names, and leaves
the same registry; with more definitions at the end, as when the LTL definitions are selected as
well, its formulas and its failures begin with those it has without; and it does not look at
assertions. -/
theorem translateModel_noninterference (config : BatchConfig) (p : PropertyModel)
    (r r' : Registry) :
    let batch := (translateModel config p).run r
    let widened : BatchConfig := { config with includeLtlDefinitions := true }
    (translateModel config p).run r' = batch ∧
      (∀ p', p.Thinned config.maxExpressionDepth.toNat p' →
        ((translateModel config p').run r).1.formulas = batch.1.formulas ∧
          ((translateModel config p').run r).2 = batch.2) ∧
      (∀ (config' : BatchConfig) (p' : PropertyModel) (more : List Definition),
        config'.maxExpressionDepth = config.maxExpressionDepth →
        p'.selected config'.includeLtlDefinitions =
          p.selected config.includeLtlDefinitions ++ more →
        batch.1.formulas <+: ((translateModel config' p').run r).1.formulas ∧
          batch.1.failures <+: ((translateModel config' p').run r).1.failures) ∧
      (batch.1.formulas <+: ((translateModel widened p).run r).1.formulas ∧
        batch.1.failures <+: ((translateModel widened p).run r).1.failures) ∧
      ∀ assertions,
        (translateModel config { p with assertionDefinitions := assertions }).run r = batch := by
  intro batch widened
  refine ⟨rfl, fun p' thinned => ⟨?_, ?_⟩, fun config' p' more limit appended => ?_, ?_,
    fun _ => rfl⟩
  · rw [formulas_translateModel, accepted_of_thinned thinned, ← formulas_translateModel config p r]
  · rw [registry_translateModel, accepted_of_thinned thinned, ← registry_translateModel config p r]
  · exact prefix_of_append limit appended r r
  · have appended := selected_true p config.includeLtlDefinitions
    exact @prefix_of_append config widened p p _ rfl appended r r

/-- Three definitions, of which the second is nested too deeply, and the same without it; the
second registry knows a name already. -/
theorem translateModel_noninterference_thinned :
    let config : BatchConfig := { BatchConfig.default with maxExpressionDepth := 2 }
    let widened : BatchConfig := { config with includeLtlDefinitions := true }
    let x : Expression := .term 0 (some "x") none
    let y : Expression := .term 1 (some "y") none
    let both : Definition := ⟨"both", some (.binary "&&" (some x) (some y))⟩
    let deep : Definition := ⟨"deep", some (.unary "!" (some (.unary "!" (some y))))⟩
    let one : Definition := ⟨"one", some y⟩
    let p : PropertyModel := ⟨[both, deep, one], [both], []⟩
    let p' : PropertyModel := ⟨[both, one], [both], []⟩
    let batch := (translateModel config p).run ∅
    p.Thinned 2 p' ∧
      (translateModel config p).run (Registry.empty.intern "stale").2 = batch ∧
      ((translateModel config p').run ∅).1.formulas = batch.1.formulas ∧
      ((translateModel config p').run ∅).2 = batch.2 ∧
      batch.1.formulas <+: ((translateModel widened p).run ∅).1.formulas := by
  intro config widened x y both deep one p p' batch
  have exceeds : ¬ deep.IsWithin 2 :=
    Definition.not_isWithin_iff.2 ⟨.unary "!" (some (.unary "!" (some y))), rfl, by
      simp [y, Expression.depth, Expression.fold_eq_foldl, Expression.nodes,
        Expression.slotNodes]⟩
  have thinned : p.Thinned 2 p' :=
    ⟨.keep both (.drop exceeds (.keep one .nil)), .keep both .nil, .nil⟩
  obtain ⟨reset, leftOut, -, longer, -⟩ :=
    translateModel_noninterference config p ∅ (Registry.empty.intern "stale").2
  exact ⟨thinned, reset, (leftOut p' thinned).1, (leftOut p' thinned).2, longer.1⟩

end Batch
end ActorLtl
