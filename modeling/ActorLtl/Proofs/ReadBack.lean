/-
# Which outcomes can be read back

A file may nest 127 levels, of which an outcome uses four around each formula.  So what is written
of a batch is read back exactly if none of its formulas is nested more than 123 levels deep
(`BatchOutcome.readBack?_eq_some_iff`), and a formula has up to five levels for each level of its
expression.  A depth limit of 24 is therefore the highest under which every outcome can be read
back (`Batch.readBack?_translateModel`).
-/

import ActorLtl.Proofs.Depth
import ActorLtl.Proofs.Encoding
import ActorLtl.Proofs.Partition
import ActorLtl.Proofs.Reading

namespace ActorLtl

namespace BatchOutcome

/-- What is read from the text of an outcome. -/
def readBack? (layout : Layout) (o : BatchOutcome) : Option BatchOutcome :=
  (Json.parse? (o.toJson.write layout)).bind (decoder fileLevels)

variable {o : BatchOutcome} {layout : Layout}

theorem readBack?_eq (words : o.HasWords) :
    o.readBack? layout = decoder fileLevels o.toJson := by
  rw [readBack?, Json.parse?_write layout (isPlain_toJson words), Option.bind_some]

/-- **An outcome is read back if its formulas are not nested too deeply,** -/
theorem readBack?_eq_some_iff (words : o.HasWords) :
    o.readBack? layout = some o ↔ ∀ t ∈ o.formulas, t.formula.formula.toJson.nesting ≤ 123 := by
  rw [readBack?_eq words, (takes_decoder words).eq_some_iff]
  exact @nesting_toJson_le_iff o 122

/-- and refused otherwise; nothing else is ever read. -/
theorem readBack?_eq_none_iff (words : o.HasWords) :
    o.readBack? layout = none ↔ ∃ t ∈ o.formulas, 123 < t.formula.formula.toJson.nesting := by
  rw [readBack?_eq words, (takes_decoder words).eq_none_iff, ← Nat.not_le]
  refine (not_congr (@nesting_toJson_le_iff o 122)).trans ?_
  simp

end BatchOutcome

/-! ## Formulas of a batch -/

/-- **A definition is within the limit if its expression is not nested more deeply.** -/
theorem Definition.isWithin_iff {limit : Nat} {d : Definition} :
    d.IsWithin limit ↔ Expression.slotNesting d.expression ≤ limit := by
  unfold IsWithin
  cases d.expression with
  | none => simp [Expression.slotNesting]
  | some e => simp [Expression.slotNesting, Expression.depth_eq_nesting]

/-- No more names are new than come in. -/
theorem length_newNames_le (known names : List String) :
    (newNames known names).length ≤ names.length := by
  induction names generalizing known with
  | nil => exact Nat.le_refl 0
  | cons name names ih =>
    rw [newNames]
    split
    · exact Nat.le_succ_of_le (ih known)
    · exact Nat.succ_le_succ (ih _)

namespace Batch

variable {r : Registry} {ds : List Definition} {t : TranslatedDefinition}

/-- Every formula is that of a definition, numbered by a registry that the last one extends. -/
theorem exists_of_mem_formulasFrom (h : t ∈ formulasFrom r ds) :
    ∃ d ∈ ds, ∃ before : Registry,
      t = ⟨d.name, d.labelled (before.internAll (Expression.slotKeys d.expression))⟩ ∧
        (r.internAll (keysOf ds)).Extends
          (before.internAll (Expression.slotKeys d.expression)) := by
  induction ds generalizing r with
  | nil => cases h
  | cons d ds ih =>
    rw [internAll_keysOf_cons]
    rcases List.mem_cons.1 h with rfl | h
    · exact ⟨d, List.mem_cons_self, r, rfl, Registry.internAll_extends _ _⟩
    · obtain ⟨d', mem, before, eq, extends_⟩ := ih h
      exact ⟨d', List.mem_cons_of_mem _ mem, before, eq, extends_⟩

section Model

variable {config : BatchConfig} {p : PropertyModel} {milliseconds : Nat}

/-- **Counts that are words make the numbers of propositions words.** -/
theorem hasWords_translateModel
    (words : (((translateModel config p).run r).1.after milliseconds).stats.AreWords) :
    (((translateModel config p).run r).1.after milliseconds).HasWords := by
  refine ⟨words, fun t mem i inside => ?_⟩
  have mem' : t ∈ formulasFrom ∅ (accepted config p) := by
    rw [← formulas_translateModel config p r]
    exact mem
  obtain ⟨d, -, before, rfl, extends_⟩ := exists_of_mem_formulasFrom mem'
  have named := Definition.lt_length_of_mentions (Formula.mem_atoms_iff_mentions.1 inside)
  have few : (Registry.internAll ∅ (keysOf (accepted config p))).nameList.length <
      UInt64.size := by
    rw [← registry_translateModel config p r]
    exact words.propositionCount
  exact (named.trans_le extends_.length_le).trans few

/-- **Formulas are nested at most five levels for each level of the depth limit.** -/
theorem nesting_le_of_mem_formulas (mem : t ∈ ((translateModel config p).run r).1.formulas) :
    t.formula.formula.toJson.nesting ≤ 1 + 5 * config.maxExpressionDepth.toNat := by
  rw [formulas_translateModel] at mem
  obtain ⟨d, selected, before, rfl, -⟩ := exists_of_mem_formulasFrom mem
  have within : d.IsWithin config.maxExpressionDepth.toNat := by
    simpa using (List.mem_filter.1 selected).2
  exact (Expression.measure_slotFormula Formula.measured_nesting _ d.expression).trans
    (Formula.nestingCosts.bound_mono (Definition.isWithin_iff.1 within))

/-- The counts of a batch are words if few definitions are selected and few names come in. -/
theorem areWords_translateModel
    (few : (p.selected config.includeLtlDefinitions).length < UInt64.size)
    (names : (keysOf (accepted config p)).length < UInt64.size)
    (time : milliseconds < UInt64.size) :
    (((translateModel config p).run r).1.after milliseconds).stats.AreWords := by
  have counted := length_assembleAll config.maxExpressionDepth.toNat
    (p.selected config.includeLtlDefinitions) ∅
  refine ⟨?_, ?_, ?_, ?_, time⟩
  · exact counted.trans_lt few
  · exact ((List.length_filterMap_le _ _).trans_eq counted).trans_lt few
  · exact ((List.length_filterMap_le _ _).trans_eq counted).trans_lt few
  · show ((translateModel config p).run r).2.nameList.length < _
    rw [registry_translateModel, Registry.nameList_internAll]
    exact (length_newNames_le [] _).trans_lt names

end Model
end Batch

/-! ## Towers -/

namespace Expression

/-- So many nodes on top of one another, below them nothing. -/
def tower (node : Option Expression → Expression) : Nat → Option Expression
  | 0 => none
  | n + 1 => some (node (tower node n))

theorem slotNesting_tower {node : Option Expression → Expression}
    (level : ∀ slot, (node slot).nesting = 1 + slotNesting slot) (n : Nat) :
    slotNesting (tower node n) = n := by
  induction n with
  | zero => rfl
  | succ n ih =>
    rw [tower, slotNesting, level, ih, Nat.add_comm]

/-- A negation. -/
def negate (slot : Option Expression) : Expression := unary "!" slot

/-- An equivalence with nothing on the right. -/
def equate (slot : Option Expression) : Expression := binary "<->" slot none

theorem slotNesting_negations (n : Nat) : slotNesting (tower negate n) = n :=
  slotNesting_tower (fun slot => by rw [negate, nesting]) n

theorem slotNesting_equivalences (n : Nat) : slotNesting (tower equate n) = n :=
  slotNesting_tower (fun slot => by simp [equate, nesting, slotNesting]) n

theorem slotKeys_negations (n : Nat) : slotKeys (tower negate n) = [] := by
  induction n with
  | zero => rfl
  | succ n ih =>
    have key : slotKeys (tower negate (n + 1)) = slotKeys (tower negate n) ++ [] := rfl
    rw [key, ih]
    rfl

theorem slotKeys_equivalences (n : Nat) : slotKeys (tower equate n) = [] := by
  induction n with
  | zero => rfl
  | succ n ih =>
    have key : slotKeys (tower equate (n + 1)) = slotKeys (tower equate n) ++ [] ++ [] := rfl
    rw [key, ih]
    rfl

/-- Negations add one level each. -/
theorem lt_nesting_negations (number : String → Nat) (n : Nat) :
    n < (slotFormula number (tower negate n)).toJson.nesting := by
  induction n with
  | zero =>
    show 0 < (Formula.constant false).toJson.nesting
    decide
  | succ n ih =>
    have formula : slotFormula number (tower negate (n + 1)) =
        .negation (slotFormula number (tower negate n)) := rfl
    rw [formula]
    simp only [Formula.toJson, Json.nesting, Json.memberNesting]
    omega

/-- Equivalences add five. -/
theorem lt_nesting_equivalences (number : String → Nat) (n : Nat) :
    5 * n < (slotFormula number (tower equate n)).toJson.nesting := by
  induction n with
  | zero =>
    show 0 < (Formula.constant false).toJson.nesting
    decide
  | succ n ih =>
    let left := slotFormula number (tower equate n)
    have below : 5 * n < left.toJson.nesting := ih
    have formula : slotFormula number (tower equate (n + 1)) =
        .and (.or (.negation left) (.constant false)) (.or left (.negation (.constant false))) := rfl
    rw [formula]
    simp only [Formula.and, Formula.or, Formula.toJson, Formula.listToJson, Json.nesting,
      Json.memberNesting, Json.listNesting]
    omega

end Expression

namespace Batch

variable {config : BatchConfig} {d : Definition} {milliseconds : Nat}

section Single

variable (within : d.IsWithin config.maxExpressionDepth.toNat)
include within

theorem accepted_single : accepted config ⟨[d], [], []⟩ = [d] := by
  cases selected : config.includeLtlDefinitions <;>
    simpa [accepted, PropertyModel.selected, selected] using within

theorem areWords_single (names : (Expression.slotKeys d.expression).length < UInt64.size)
    (time : milliseconds < UInt64.size) :
    (((translateModel config ⟨[d], [], []⟩).run ∅).1.after milliseconds).stats.AreWords := by
  refine areWords_translateModel ?_ ?_ time
  · have one : 1 < UInt64.size := by decide
    cases config.includeLtlDefinitions <;> exact one
  · rwa [accepted_single within, keysOf, List.flatMap_singleton]

/-- **A single definition can make an outcome unreadable,** if its formula is nested too deeply. -/
theorem readBack?_single (keyless : Expression.slotKeys d.expression = [])
    (deep : ∀ number, 123 < (Expression.slotFormula number d.expression).toJson.nesting)
    (layout : Layout) :
    let outcome := ((translateModel config ⟨[d], [], []⟩).run ∅).1.after 0
    outcome.failures = [] ∧ outcome.stats.AreWords ∧ outcome.readBack? layout = none := by
  intro outcome
  have words : outcome.stats.AreWords := areWords_single within (by simp [keyless]) (by decide)
  have formulas : outcome.formulas = formulasFrom ∅ [d] := by
    rw [← accepted_single within]
    exact formulas_translateModel config ⟨[d], [], []⟩ ∅
  have failures : outcome.failures = [] := by
    refine (failures_translateModel config ⟨[d], [], []⟩ ∅).trans ?_
    cases config.includeLtlDefinitions <;>
      exact List.filterMap_cons_none (Definition.failure?_of_isWithin within)
  refine ⟨failures, words, (BatchOutcome.readBack?_eq_none_iff (hasWords_translateModel words)).2 ?_⟩
  rw [formulas]
  exact ⟨_, List.mem_cons_self, deep _⟩

end Single

/-- **Which outcomes can be read back.**  Let the counts of an outcome be words.  Then it is read
back as it is, one line or indented, if each of its formulas is written with at most 123 levels, and
otherwise it is refused.  If no expression may be nested more than 24 levels deep, every outcome is
read back; under any greater limit one is not. -/
theorem readBack?_translateModel (config : BatchConfig) :
    (∀ (p : PropertyModel) (r : Registry) (milliseconds : Nat) (layout : Layout),
      let outcome := ((translateModel config p).run r).1.after milliseconds
      outcome.stats.AreWords →
        (outcome.readBack? layout = some outcome ↔
          ∀ t ∈ outcome.formulas, t.formula.formula.toJson.nesting ≤ 123) ∧
        (outcome.readBack? layout = none ↔
          ∃ t ∈ outcome.formulas, 123 < t.formula.formula.toJson.nesting)) ∧
      (config.maxExpressionDepth.toNat ≤ 24 ↔
        ∀ (p : PropertyModel) (r : Registry) (milliseconds : Nat) (layout : Layout),
          let outcome := ((translateModel config p).run r).1.after milliseconds
          outcome.stats.AreWords → outcome.readBack? layout = some outcome) := by
  refine ⟨?_, ⟨fun limit => ?_, fun readable => ?_⟩⟩
  · intro p r milliseconds layout outcome words
    have inside : outcome.HasWords := hasWords_translateModel words
    exact ⟨BatchOutcome.readBack?_eq_some_iff inside, BatchOutcome.readBack?_eq_none_iff inside⟩
  · intro p r milliseconds layout outcome words
    refine (BatchOutcome.readBack?_eq_some_iff (hasWords_translateModel words)).2 fun t mem => ?_
    have nesting : t.formula.formula.toJson.nesting ≤ 1 + 5 * config.maxExpressionDepth.toNat :=
      nesting_le_of_mem_formulas mem
    omega
  · by_contra limit
    let d : Definition := ⟨"deep", Expression.tower Expression.equate 25⟩
    have within : d.IsWithin config.maxExpressionDepth.toNat := by
      refine Definition.isWithin_iff.2 ?_
      rw [Expression.slotNesting_equivalences]
      omega
    obtain ⟨-, words, refused⟩ := readBack?_single within (Expression.slotKeys_equivalences 25)
      (fun number => Nat.lt_trans (by decide) (Expression.lt_nesting_equivalences number 25))
      .compact
    rw [readable ⟨[d], [], []⟩ ∅ 0 .compact words] at refused
    cases refused

/-- Under a limit of 24 a mutual exclusion is read back. -/
theorem readBack?_translateModel_exclusion :
    let config : BatchConfig := { BatchConfig.default with maxExpressionDepth := 24 }
    let inside (id : NodeId) (name : String) : Option Expression :=
      some (.member (some (.term id (some name) none)) (some (.term (id + 1) (some "inside") none)))
    let d : Definition := ⟨"exclusion", some (.unary "G" (some (.unary "!" (some
      (.binary "&&" (inside 0 "left") (inside 2 "right"))))))⟩
    let outcome := ((translateModel config ⟨[d], [], []⟩).run ∅).1.after 7
    outcome.stats.AreWords ∧ outcome.readBack? (.indented 0) = some outcome := by
  intro config inside d outcome
  have within : d.IsWithin 24 := Definition.isWithin_iff.2 (by decide)
  have words : outcome.stats.AreWords := areWords_single within (by decide) (by decide)
  exact ⟨words, (readBack?_translateModel config).2.1 (by decide) ⟨[d], [], []⟩ ∅ 7 _ words⟩

/-- The default limit lets a tower of 123 negations pass: it has a formula, and the outcome cannot
be read back. -/
theorem readBack?_negations :
    let d : Definition := ⟨"deep", Expression.tower Expression.negate 123⟩
    let outcome := ((translateModel .default ⟨[d], [], []⟩).run ∅).1.after 0
    outcome.failures = [] ∧ outcome.stats.AreWords ∧ outcome.readBack? .compact = none := by
  intro d
  have within : d.IsWithin BatchConfig.default.maxExpressionDepth.toNat := by
    refine Definition.isWithin_iff.2 ?_
    rw [Expression.slotNesting_negations]
    decide
  exact readBack?_single within (Expression.slotKeys_negations 123)
    (fun number => Expression.lt_nesting_negations number 123) .compact

end Batch
end ActorLtl
