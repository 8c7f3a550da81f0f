/-
# The depth limit

Which definitions a depth limit lets pass is told from the depth of their expressions alone
(`Definition.IsWithin`).  A list of definitions is thinned by taking out any that the limit
does not let pass, at any places; what passes stays, in its order (`Thinned.filter_isWithin`).
-/

import ActorLtl.Definition

namespace ActorLtl
namespace Definition

variable {limit depth : Nat} {d : Definition} {ds ds' es es' : List Definition}

/-- Whether the definition is not nested too deeply.  One without an expression never is. -/
def IsWithin (limit : Nat) (d : Definition) : Prop :=
  ∀ e, d.expression = some e → e.depth ≤ limit

theorem excessiveDepth?_eq_none_iff : d.excessiveDepth? limit = none ↔ d.IsWithin limit := by
  simp [excessiveDepth?, IsWithin]

theorem excessiveDepth?_eq_some_iff :
    d.excessiveDepth? limit = some depth ↔
      ∃ e, d.expression = some e ∧ limit < e.depth ∧ e.depth = depth := by
  simp [excessiveDepth?, Option.bind_eq_some_iff]

instance : Decidable (d.IsWithin limit) :=
  decidable_of_iff (d.excessiveDepth? limit = none) excessiveDepth?_eq_none_iff

/-- **What is not within the limit has an expression that is nested more deeply.** -/
theorem not_isWithin_iff :
    ¬ d.IsWithin limit ↔ ∃ e, d.expression = some e ∧ limit < e.depth := by
  simp [IsWithin]

/-- Of such an expression the measure gives the depth. -/
theorem exists_excessiveDepth? (deep : ¬ d.IsWithin limit) :
    ∃ e, d.expression = some e ∧ limit < e.depth ∧ d.excessiveDepth? limit = some e.depth := by
  obtain ⟨e, expression, exceeds⟩ := not_isWithin_iff.1 deep
  exact ⟨e, expression, exceeds,
    excessiveDepth?_eq_some_iff.2 ⟨e, expression, exceeds, rfl⟩⟩

/-- Whether the second list is the first without some of the definitions that are nested too
deeply. -/
inductive Thinned (limit : Nat) : List Definition → List Definition → Prop
  | nil : Thinned limit [] []
  | keep (d : Definition) {ds ds' : List Definition} :
      Thinned limit ds ds' → Thinned limit (d :: ds) (d :: ds')
  | drop {d : Definition} {ds ds' : List Definition} :
      ¬ d.IsWithin limit → Thinned limit ds ds' → Thinned limit (d :: ds) ds'

namespace Thinned

theorem append (h : Thinned limit ds ds') (h' : Thinned limit es es') :
    Thinned limit (ds ++ es) (ds' ++ es') := by
  induction h with
  | nil => exact h'
  | keep d _ ih => exact .keep d ih
  | drop deep _ ih => exact .drop deep ih

/-- **Thinning takes out nothing that passes.** -/
theorem filter_isWithin (h : Thinned limit ds ds') :
    ds'.filter (·.IsWithin limit) = ds.filter (·.IsWithin limit) := by
  induction h with
  | nil => rfl
  | keep d _ ih => rw [List.filter_cons, List.filter_cons, ih]
  | drop deep _ ih => rw [ih, List.filter_cons_of_neg (by simpa using deep)]

end Thinned
end Definition

namespace PropertyModel

/-- Whether the second property model is the first without some of the definitions that are
nested too deeply. -/
structure Thinned (limit : Nat) (p p' : PropertyModel) : Prop where
  definitions : Definition.Thinned limit p.definitions p'.definitions
  ltlDefinitions : Definition.Thinned limit p.ltlDefinitions p'.ltlDefinitions
  assertionDefinitions :
    Definition.Thinned limit p.assertionDefinitions p'.assertionDefinitions

/-- **Thinning a property model thins what is selected from it.** -/
theorem Thinned.selected {limit : Nat} {p p' : PropertyModel} (h : p.Thinned limit p')
    (includeLtlDefinitions : Bool) :
    Definition.Thinned limit (p.selected includeLtlDefinitions)
      (p'.selected includeLtlDefinitions) := by
  refine h.definitions.append ?_
  cases includeLtlDefinitions with
  | false => exact .nil
  | true => exact h.ltlDefinitions

end PropertyModel
end ActorLtl
