/-
# Definitions do not depend on each other

One registry numbers the definitions of a batch, so what a definition's formula looks like
depends on all that came before it; what its text looks like does not.  Two registries that know
the keys of an expression give formulas of one phrase (`Expression.phrase_eq`), which makes the
text the one of the definition assembled alone (`Definition.text_assemble`).  A batch is then
told from its definitions one by one (`Batch.assembleAll_run`), in whatever order they come.
-/

import ActorLtl.Batch
import ActorLtl.Proofs.Assembly
import ActorLtl.Proofs.Phrase

namespace ActorLtl

/-- **The phrase of a formula is told from the phrases of its operands.** -/
theorem Formula.isCongruence_phrase (names names' : List String) :
    IsCongruence fun f g => f.phrase names = g.phrase names' where
  constant _ := rfl
  negation h := by rw [phrase, phrase, h]
  and h h' := by simp only [Formula.and, phrase, phrases, h, h']
  or h h' := by simp only [Formula.or, phrase, phrases, h, h']
  next h := by rw [phrase, phrase, h]
  globally h := by rw [phrase, phrase, h]
  eventually h := by rw [phrase, phrase, h]
  strongUntil h h' := by rw [phrase, phrase, h, h']
  weakUntil h h' := by rw [phrase, phrase, h, h']
  strongRelease h h' := by rw [phrase, phrase, h, h']
  release h h' := by rw [phrase, phrase, h, h']

/-- **Registries that know the keys give one phrase,** whatever numbers the keys have in them. -/
theorem Expression.phrase_eq {r r' : Registry} {slot : Option Expression}
    (known : ∀ name ∈ slotKeys slot, name ∈ r.nameList)
    (known' : ∀ name ∈ slotKeys slot, name ∈ r'.nameList) :
    (slotFormula r.number slot).phrase r.nameList =
      (slotFormula r'.number slot).phrase r'.nameList := by
  refine related_slotFormula (Formula.isCongruence_phrase _ _) slot fun name key => ?_
  have listed := Registry.getElem?_number (known name key)
  have listed' := Registry.getElem?_number (known' name key)
  show Phrase.named _ = Phrase.named _
  rw [listed, listed']
  rfl

/-! ## One definition -/

namespace Definition

variable {limit depth : Nat} {d : Definition}

/-- What becomes of a definition that is assembled alone. -/
def alone (limit : Nat) (d : Definition) : Except DefinitionError LabelledFormula :=
  ((d.assemble limit).run ∅).1

/-- What the definition adds to a registry. -/
def keys (limit : Nat) (d : Definition) : List String :=
  if (d.excessiveDepth? limit).isSome then [] else Expression.slotKeys d.expression

theorem keys_of_excessiveDepth? (h : d.excessiveDepth? limit = some depth) :
    d.keys limit = [] := by
  rw [keys, h, Option.isSome_some, if_pos rfl]

theorem keys_of_within (h : d.excessiveDepth? limit = none) :
    d.keys limit = Expression.slotKeys d.expression := by
  rw [keys, h, Option.isSome_none, if_neg Bool.false_ne_true]

/-- **Assembly interns the definition's keys,** or none if it is nested too deeply. -/
theorem assemble_registry (limit : Nat) (d : Definition) (r : Registry) :
    ((d.assemble limit).run r).2 = r.internAll (d.keys limit) := by
  cases deep : d.excessiveDepth? limit with
  | some depth => rw [assemble_of_excessiveDepth? deep, keys_of_excessiveDepth? deep,
      Registry.internAll_nil]
  | none => rw [assemble_run deep, keys_of_within deep]

/-- **What is nested too deeply fails alone, too,** with the same error. -/
theorem alone_of_excessiveDepth? (h : d.excessiveDepth? limit = some depth) :
    d.alone limit = .error (.depthExceeded d.name depth limit) := by
  rw [alone, assemble_of_excessiveDepth? h]

/-- **What is not nested too deeply has a formula alone.** -/
theorem alone_of_within (h : d.excessiveDepth? limit = none) :
    ∃ labelled, d.alone limit = .ok labelled := by
  rw [alone, assemble_run h]
  exact ⟨_, rfl⟩

/-- **A definition has one text,** and one error, after whatever has been met before it. -/
theorem text_assemble (limit : Nat) (d : Definition) (r : Registry) :
    ((d.assemble limit).run r).1.map LabelledFormula.text =
      (d.alone limit).map LabelledFormula.text := by
  cases deep : d.excessiveDepth? limit with
  | some depth => rw [assemble_of_excessiveDepth? deep, alone_of_excessiveDepth? deep]
  | none =>
    have known : ∀ r : Registry, ∀ name ∈ Expression.slotKeys d.expression,
        name ∈ (r.internAll (Expression.slotKeys d.expression)).nameList :=
      fun r name key => Registry.mem_nameList_internAll.2 (.inr key)
    rw [alone, assemble_run deep, assemble_run deep]
    refine congrArg Except.ok (Formula.text_eq_of_phrase_eq ?_)
    exact Expression.phrase_eq (known r) (known ∅)

end Definition

/-! ## Batches -/

/-- What a translated definition shows: its name and its formula's text. -/
def TranslatedDefinition.shown (t : TranslatedDefinition) : String × String :=
  (t.name, t.formula.text)

/-- What became of one definition, as far as texts tell. -/
abbrev Told := Definition × Except DefinitionError String

namespace Told

/-- The name and the text of a definition that has a formula. -/
def shown? : Told → Option (String × String)
  | (d, .ok text) => some (d.name, text)
  | (_, .error _) => none

/-- The failure of a definition that has none. -/
def failure? : Told → Option DefinitionFailure
  | (_, .ok _) => none
  | (d, .error cause) => some ⟨d.name, cause.message⟩

end Told

namespace Assembled

def told (a : Assembled) : Told := (a.1, a.2.map LabelledFormula.text)

theorem shown?_told (a : Assembled) :
    a.told.shown? = a.translated?.map TranslatedDefinition.shown := by
  rcases a with ⟨d, _ | _⟩ <;> rfl

theorem failure?_told (a : Assembled) : a.told.failure? = a.failure? := by
  rcases a with ⟨d, _ | _⟩ <;> rfl

end Assembled

/-- What becomes of a definition that is assembled alone, as far as texts tell. -/
def Definition.toldAlone (limit : Nat) (d : Definition) : Told :=
  Assembled.told (d, d.alone limit)

namespace Batch

/-- **A batch is told from its definitions one by one:** each has the text that it has alone, and
the registry has met the keys of them all. -/
theorem assembleAll_run (limit : Nat) (ds : List Definition) (r : Registry) :
    ((assembleAll limit ds).run r).1.map Assembled.told = ds.map (·.toldAlone limit) ∧
      ((assembleAll limit ds).run r).2 = r.internAll (ds.flatMap (·.keys limit)) := by
  induction ds generalizing r with
  | nil => exact ⟨rfl, rfl⟩
  | cons d ds ih =>
    obtain ⟨texts, registry⟩ := ih ((d.assemble limit).run r).2
    rw [assembleAll, run_bind_eq, run_bind_eq]
    constructor
    · have first : Assembled.told (d, ((d.assemble limit).run r).1) = d.toldAlone limit :=
        Prod.ext rfl (d.text_assemble limit r)
      show Assembled.told (d, ((d.assemble limit).run r).1) :: _ = _
      rw [first, List.map_cons]
      exact congrArg _ texts
    · rw [List.flatMap_cons, Registry.internAll_append, ← Definition.assemble_registry]
      exact registry

/-- Whatever is read from texts is read from definitions assembled alone. -/
theorem filterMap_told {α : Type} (read : Told → Option α) (limit : Nat) (ds : List Definition)
    (r : Registry) :
    ((assembleAll limit ds).run r).1.filterMap (fun a => read a.told) =
      ds.filterMap fun d => read (d.toldAlone limit) := by
  have texts := congrArg (List.filterMap read) (assembleAll_run limit ds r).1
  rw [List.filterMap_map, List.filterMap_map] at texts
  exact texts

section Model

variable (config : BatchConfig) (p : PropertyModel) (r : Registry)

/-- **The formulas of a property model** show what its definitions show alone. -/
theorem shown_translateModel :
    ((translateModel config p).run r).1.formulas.map TranslatedDefinition.shown =
      (p.selected config.includeLtlDefinitions).filterMap
        fun d => (d.toldAlone config.maxExpressionDepth.toNat).shown? := by
  rw [← filterMap_told _ _ _ ∅]
  simp only [Assembled.shown?_told]
  rw [← List.map_filterMap]
  rfl

/-- **The failures of a property model** are those of its definitions alone. -/
theorem failures_translateModel :
    ((translateModel config p).run r).1.failures =
      (p.selected config.includeLtlDefinitions).filterMap
        fun d => (d.toldAlone config.maxExpressionDepth.toNat).failure? := by
  rw [← filterMap_told _ _ _ ∅]
  simp only [Assembled.failure?_told]
  rfl

/-- **The registry has met the keys of the definitions** and nothing else. -/
theorem mem_registry_translateModel {name : String} :
    name ∈ ((translateModel config p).run r).2.nameList ↔
      ∃ d ∈ p.selected config.includeLtlDefinitions,
        name ∈ d.keys config.maxExpressionDepth.toNat := by
  have registry := (assembleAll_run config.maxExpressionDepth.toNat
    (p.selected config.includeLtlDefinitions) ∅).2
  show name ∈ ((assembleAll _ _).run ∅).2.nameList ↔ _
  rw [registry, Registry.mem_nameList_internAll, List.mem_flatMap]
  exact or_iff_right List.not_mem_nil

end Model

/-- **Every definition has its text to itself.**  A batch gives each definition that is not nested
too deeply the text that it has when it is assembled alone, and leaves out the others.  So the
order of the definitions is the order of what comes out and nothing more: after any permutation
the same texts and failures come out, and the registry knows the same names. -/
theorem translateModel_independent (config : BatchConfig) (p p' : PropertyModel) (r r' : Registry)
    (perm : (p'.selected config.includeLtlDefinitions).Perm
      (p.selected config.includeLtlDefinitions)) :
    let limit := config.maxExpressionDepth.toNat
    let ds := p.selected config.includeLtlDefinitions
    let batch := (translateModel config p).run r
    let batch' := (translateModel config p').run r'
    (∀ d ∈ ds, d.excessiveDepth? limit = none ↔ ∃ labelled, d.alone limit = .ok labelled) ∧
      batch.1.formulas.map TranslatedDefinition.shown =
        ds.filterMap (fun d => (d.toldAlone limit).shown?) ∧
      batch.1.failures = ds.filterMap (fun d => (d.toldAlone limit).failure?) ∧
      (batch'.1.formulas.map TranslatedDefinition.shown).Perm
        (batch.1.formulas.map TranslatedDefinition.shown) ∧
      batch'.1.failures.Perm batch.1.failures ∧
      (∀ name, name ∈ batch'.2.nameList ↔ name ∈ batch.2.nameList) ∧
      batch'.1.stats.propositionCount = batch.1.stats.propositionCount := by
  intro limit ds batch batch'
  have names : ∀ name, name ∈ batch'.2.nameList ↔ name ∈ batch.2.nameList := by
    intro name
    rw [mem_registry_translateModel, mem_registry_translateModel]
    simp only [perm.mem_iff]
  have namesPerm : batch'.2.nameList.Perm batch.2.nameList :=
    (List.perm_ext_iff_of_nodup (Registry.names_nodup _) (Registry.names_nodup _)).2 names
  refine ⟨fun d _ => ⟨Definition.alone_of_within, fun ⟨labelled, result⟩ => ?_⟩,
    shown_translateModel config p r, failures_translateModel config p r, ?_, ?_, names,
    namesPerm.length_eq⟩
  · cases deep : d.excessiveDepth? limit with
    | none => rfl
    | some depth =>
      rw [Definition.alone_of_excessiveDepth? deep] at result
      cases result
  · rw [shown_translateModel, shown_translateModel]
    exact perm.filterMap _
  · rw [failures_translateModel, failures_translateModel]
    exact perm.filterMap _

/-- Three definitions and the same in another order; the second is nested too deeply. -/
theorem translateModel_independent_three :
    let config : BatchConfig := { BatchConfig.default with maxExpressionDepth := 2 }
    let x : Expression := .term 0 (some "x") none
    let y : Expression := .term 1 (some "y") none
    let both : Definition := ⟨"both", some (.binary "&&" (some x) (some y))⟩
    let deep : Definition := ⟨"deep", some (.unary "!" (some (.unary "!" (some y))))⟩
    let one : Definition := ⟨"one", some y⟩
    let p : PropertyModel := ⟨[both, deep, one], [], []⟩
    let p' : PropertyModel := ⟨[one, deep, both], [], []⟩
    let batch := (translateModel config p).run ∅
    let batch' := (translateModel config p').run ∅
    (p'.selected false).Perm (p.selected false) ∧
      (batch'.1.formulas.map TranslatedDefinition.shown).Perm
        (batch.1.formulas.map TranslatedDefinition.shown) ∧
      batch'.1.failures.Perm batch.1.failures ∧
      batch'.1.stats.propositionCount = batch.1.stats.propositionCount := by
  intro config x y both deep one p p' batch batch'
  have perm : (p'.selected false).Perm (p.selected false) :=
    List.reverse_perm [both, deep, one]
  obtain ⟨-, -, -, shown, failures, -, count⟩ := translateModel_independent config p p' ∅ ∅ perm
  exact ⟨perm, shown, failures, count⟩

end Batch
end ActorLtl
