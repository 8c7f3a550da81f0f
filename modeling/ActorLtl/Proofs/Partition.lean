/-
# The law of a batch

A batch goes through its definitions once, with one registry.  What comes out is told from the
definitions within the depth limit alone (`Batch.formulasFrom`): they are numbered one after the
other, as if nothing stood between them, and the lists of names grow from each to the next.  The
definitions beyond the limit are the failures.
-/

import ActorLtl.Proofs.Independence
import ActorLtl.Proofs.Refusal

namespace ActorLtl
namespace Definition

variable {limit : Nat} {d : Definition}

theorem keys_of_isWithin (within : d.IsWithin limit) :
    d.keys limit = Expression.slotKeys d.expression :=
  keys_of_within (excessiveDepth?_eq_none_iff.2 within)

theorem keys_of_not_isWithin (deep : ¬ d.IsWithin limit) : d.keys limit = [] := by
  obtain ⟨e, -, -, excessive⟩ := exists_excessiveDepth? deep
  exact keys_of_excessiveDepth? excessive

/-- **A definition contributes its keys or nothing.** -/
theorem mem_keys_iff {name : String} :
    name ∈ d.keys limit ↔ d.IsWithin limit ∧ name ∈ Expression.slotKeys d.expression := by
  by_cases within : d.IsWithin limit
  · rw [keys_of_isWithin within, and_iff_right within]
  · rw [keys_of_not_isWithin within]
    exact ⟨nofun, fun h => absurd h.1 within⟩

/-- The failure that a definition is, unless it has a formula. -/
def failure? (limit : Nat) (d : Definition) : Option DefinitionFailure :=
  (d.toldAlone limit).failure?

/-- What is within the limit is no failure. -/
theorem failure?_of_isWithin (within : d.IsWithin limit) : failure? limit d = none := by
  obtain ⟨f, alone⟩ := alone_of_within (excessiveDepth?_eq_none_iff.2 within)
  rw [failure?, toldAlone, alone]
  rfl

/-- What is beyond the limit is a failure of its name. -/
theorem failure?_of_not_isWithin (deep : ¬ d.IsWithin limit) :
    ∃ message, failure? limit d = some ⟨d.name, message⟩ := by
  obtain ⟨e, -, -, excessive⟩ := exists_excessiveDepth? deep
  rw [failure?, toldAlone, alone_of_excessiveDepth? excessive]
  exact ⟨_, rfl⟩

/-- **The failures are the definitions beyond the limit.** -/
theorem map_name_failures (limit : Nat) (ds : List Definition) :
    (ds.filterMap (failure? limit)).map (·.name) =
      (ds.filter fun d => ¬ d.IsWithin limit).map (·.name) := by
  induction ds with
  | nil => rfl
  | cons d ds ih =>
    by_cases within : d.IsWithin limit
    · rw [List.filterMap_cons_none (failure?_of_isWithin within), ih,
        List.filter_cons_of_neg (by simpa using within)]
    · obtain ⟨message, failed⟩ := failure?_of_not_isWithin within
      rw [List.filterMap_cons_some failed, List.filter_cons_of_pos (by simpa using within),
        List.map_cons, List.map_cons, ih]

/-- **Within the limit or beyond it is every definition once.** -/
theorem length_eq_filter_add (limit : Nat) (ds : List Definition) :
    ds.length = (ds.filter fun d => d.IsWithin limit).length +
      (ds.filter fun d => ¬ d.IsWithin limit).length := by
  rw [ds.length_eq_countP_add_countP (fun d => decide (d.IsWithin limit)),
    List.countP_eq_length_filter, List.countP_eq_length_filter]
  simp

end Definition

namespace Batch

/-! ## Definitions numbered one after the other -/

/-- The names that definitions bring in, one definition after the other. -/
def keysOf (ds : List Definition) : List String :=
  ds.flatMap fun d => Expression.slotKeys d.expression

/-- The definitions with their formulas, the first numbered from registry `r` on and each of the
others from where the one before it has ended. -/
def formulasFrom (r : Registry) : List Definition → List TranslatedDefinition
  | [] => []
  | d :: ds =>
      let after := r.internAll (Expression.slotKeys d.expression)
      ⟨d.name, d.labelled after⟩ :: formulasFrom after ds

section FormulasFrom

variable (r : Registry) (ds more : List Definition)

theorem internAll_keysOf_cons (d : Definition) :
    r.internAll (keysOf (d :: ds)) =
      (r.internAll (Expression.slotKeys d.expression)).internAll (keysOf ds) := by
  rw [keysOf, List.flatMap_cons, Registry.internAll_append]
  rfl

theorem map_name_formulasFrom : (formulasFrom r ds).map (·.name) = ds.map (·.name) := by
  induction ds generalizing r with
  | nil => rfl
  | cons d ds ih => rw [formulasFrom, List.map_cons, List.map_cons, ih]

/-- **What comes later is numbered after what came before,** which does not notice. -/
theorem formulasFrom_append :
    formulasFrom r (ds ++ more) =
      formulasFrom r ds ++ formulasFrom (r.internAll (keysOf ds)) more := by
  induction ds generalizing r with
  | nil => rfl
  | cons d ds ih =>
    rw [List.cons_append, formulasFrom, formulasFrom, ih, ← internAll_keysOf_cons]
    rfl

/-- Every list of names begins with what was known before. -/
theorem nameList_prefix_of_mem {t : TranslatedDefinition} (h : t ∈ formulasFrom r ds) :
    r.nameList <+: t.formula.propositions := by
  induction ds generalizing r with
  | nil => cases h
  | cons d ds ih =>
    have first : r.nameList <+: (r.internAll (Expression.slotKeys d.expression)).nameList :=
      Registry.internAll_extends r _
    rcases List.mem_cons.1 h with rfl | h
    · exact first
    · exact first.trans (ih _ h)

/-- **The lists of names grow from each definition to the next.** -/
theorem pairwise_formulasFrom :
    (formulasFrom r ds).Pairwise fun t t' =>
      t.formula.propositions <+: t'.formula.propositions := by
  induction ds generalizing r with
  | nil => exact .nil
  | cons d ds ih => exact .cons (fun t later => nameList_prefix_of_mem _ ds later) (ih _)

/-- Of two formulas the later one lists the names of the earlier one first. -/
theorem prefix_of_le {i j : Nat} {t t' : TranslatedDefinition} (le : i ≤ j)
    (first : (formulasFrom r ds)[i]? = some t) (second : (formulasFrom r ds)[j]? = some t') :
    t.formula.propositions <+: t'.formula.propositions := by
  rcases Nat.lt_or_eq_of_le le with lt | rfl
  · obtain ⟨hi, rfl⟩ := List.getElem?_eq_some_iff.1 first
    obtain ⟨hj, rfl⟩ := List.getElem?_eq_some_iff.1 second
    exact List.pairwise_iff_getElem.1 (pairwise_formulasFrom r ds) i j hi hj lt
  · cases first.symm.trans second
    exact List.prefix_refl _

/-- **The last list of names is the registry's,** if there is a definition at all. -/
theorem nameList_eq_getLast? :
    (r.internAll (keysOf ds)).nameList =
      ((formulasFrom r ds).getLast?.map (·.formula.propositions)).getD r.nameList := by
  induction ds generalizing r with
  | nil => rfl
  | cons d ds ih =>
    rw [internAll_keysOf_cons, ih, formulasFrom, List.getLast?_cons]
    cases (formulasFrom (r.internAll (Expression.slotKeys d.expression)) ds).getLast? <;> rfl

end FormulasFrom

/-! ## What a batch makes of its definitions -/

/-- **A batch translates what is within the limit,** as if nothing else were there. -/
theorem filterMap_translated? (limit : Nat) (ds : List Definition) (r : Registry) :
    ((assembleAll limit ds).run r).1.filterMap Assembled.translated? =
      formulasFrom r (ds.filter (·.IsWithin limit)) := by
  induction ds generalizing r with
  | nil => rfl
  | cons d ds ih =>
    rw [assembleAll, run_bind_eq, run_bind_eq]
    by_cases within : d.IsWithin limit
    · rw [Definition.assemble_of_isWithin within, List.filter_cons_of_pos (by simpa using within),
        formulasFrom, ← ih]
      rfl
    · -- The refused definition leaves the registry alone, so the rest starts where it would have
      -- started without it.
      obtain ⟨e, -, -, refused⟩ := Definition.assemble_of_not_isWithin within r
      rw [refused, List.filter_cons_of_neg (by simpa using within), ← ih]
      rfl

/-- What is beyond the limit brings in no names. -/
theorem flatMap_keys (limit : Nat) (ds : List Definition) :
    ds.flatMap (·.keys limit) = keysOf (ds.filter (·.IsWithin limit)) := by
  induction ds with
  | nil => rfl
  | cons d ds ih =>
    rw [List.flatMap_cons, ih]
    by_cases within : d.IsWithin limit
    · rw [Definition.keys_of_isWithin within, List.filter_cons_of_pos (by simpa using within)]
      rfl
    · rw [Definition.keys_of_not_isWithin within, List.filter_cons_of_neg (by simpa using within)]
      rfl

/-- Every definition is looked at once. -/
theorem length_assembleAll (limit : Nat) (ds : List Definition) (r : Registry) :
    ((assembleAll limit ds).run r).1.length = ds.length := by
  have told := congrArg List.length (assembleAll_run limit ds r).1
  rwa [List.length_map, List.length_map] at told

section Model

variable (config : BatchConfig) (p : PropertyModel) (r : Registry)

/-- The selected definitions that are within the limit. -/
def accepted : List Definition :=
  (p.selected config.includeLtlDefinitions).filter (·.IsWithin config.maxExpressionDepth.toNat)

/-- **The formulas of a property model** are those of the accepted definitions, numbered from an
empty registry. -/
theorem formulas_translateModel :
    ((translateModel config p).run r).1.formulas = formulasFrom ∅ (accepted config p) :=
  filterMap_translated? config.maxExpressionDepth.toNat
    (p.selected config.includeLtlDefinitions) ∅

/-- **The registry of a property model** has met the names of the accepted definitions in turn. -/
theorem registry_translateModel :
    ((translateModel config p).run r).2 = Registry.internAll ∅ (keysOf (accepted config p)) := by
  have registry := (assembleAll_run config.maxExpressionDepth.toNat
    (p.selected config.includeLtlDefinitions) ∅).2
  -- The run interns keys definition by definition, refused ones included; those have none.
  rw [flatMap_keys] at registry
  exact registry

end Model

/-- **The law of a batch.**  The definitions within the depth limit have formulas and the others
are failures, both in the order of the definitions and as often as they occur; the counts say so,
and there is no error.  The list of names of each formula begins with those of the formulas before
it.  The batch counts the names that the registry holds afterwards, which are as many as the last
formula lists, and each is a key of a definition that has a formula. -/
theorem translateModel_partition (config : BatchConfig) (p : PropertyModel) (r : Registry) :
    let limit := config.maxExpressionDepth.toNat
    let ds := p.definitions ++ if config.includeLtlDefinitions then p.ltlDefinitions else []
    let outcome := ((translateModel config p).run r).1
    let after := ((translateModel config p).run r).2
    outcome.formulas.map (·.name) = (ds.filter fun d => d.IsWithin limit).map (·.name) ∧
      outcome.failures.map (·.name) = (ds.filter fun d => ¬ d.IsWithin limit).map (·.name) ∧
      outcome.stats.definitionCount = ds.length ∧
      outcome.stats.convertedCount = outcome.formulas.length ∧
      outcome.stats.failedCount = outcome.failures.length ∧
      ds.length = outcome.stats.convertedCount + outcome.stats.failedCount ∧
      outcome.error = none ∧
      (∀ (i j : Nat) (t t' : TranslatedDefinition), i ≤ j → outcome.formulas[i]? = some t →
        outcome.formulas[j]? = some t' → t.formula.propositions <+: t'.formula.propositions) ∧
      outcome.stats.propositionCount = after.size ∧
      outcome.stats.propositionCount =
        (outcome.formulas.getLast?.map (·.formula.propositions.length)).getD 0 ∧
      ∀ name, name ∈ after.nameList ↔
        ∃ d ∈ ds, d.IsWithin limit ∧ name ∈ Expression.slotKeys d.expression := by
  intro limit ds outcome after
  have formulas : outcome.formulas = formulasFrom ∅ (accepted config p) :=
    formulas_translateModel config p r
  have registry : after = Registry.internAll ∅ (keysOf (accepted config p)) :=
    registry_translateModel config p r
  have translated : outcome.formulas.map (·.name) =
      (ds.filter fun d => d.IsWithin limit).map (·.name) := by
    rw [formulas, map_name_formulasFrom]
    rfl
  have failed : outcome.failures.map (·.name) =
      (ds.filter fun d => ¬ d.IsWithin limit).map (·.name) := by
    rw [show outcome.failures = _ from failures_translateModel config p r]
    exact Definition.map_name_failures limit ds
  refine ⟨translated, failed, length_assembleAll limit ds ∅, rfl, rfl, ?_, rfl, ?_, rfl, ?_, ?_⟩
  · show ds.length = outcome.formulas.length + outcome.failures.length
    have converted := congrArg List.length translated
    have left := congrArg List.length failed
    rw [List.length_map, List.length_map] at converted left
    rw [converted, left]
    exact Definition.length_eq_filter_add limit ds
  · intro i j t t' le first second
    rw [formulas] at first second
    exact prefix_of_le ∅ (accepted config p) le first second
  · show after.nameList.length = _
    rw [registry, nameList_eq_getLast?, formulas]
    cases (formulasFrom ∅ (accepted config p)).getLast? <;> rfl
  · intro name
    rw [mem_registry_translateModel]
    simp only [Definition.mem_keys_iff]
    rfl

end Batch
end ActorLtl
