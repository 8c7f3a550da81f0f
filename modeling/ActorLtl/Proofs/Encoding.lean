/-
# How outcomes are written and taken in

Formulas and outcomes are written as plain values, and their decoders take in what is written as far
as the levels reach (`Formula.takes_decoder`, `BatchOutcome.takes_decoder`), if all numbers in them
are words.  So what is written is taken in unless it is nested too deeply, and in an outcome it is
the formulas that are nested deeply (`BatchOutcome.nesting_toJson_le_iff`).
-/

import ActorLtl.Batch.Json
import ActorLtl.Proofs.Growth
import ActorLtl.Proofs.Refusal
import ActorLtl.Proofs.Taking

namespace ActorLtl

open Decoder (Takes fieldsOf)
open Decoder.Fields (required_bind required_last optional_last)
open Formula (Costs Measured)

namespace Formula

theorem listToJson_eq (fs : List Formula) : listToJson fs = fs.map toJson := by
  induction fs with
  | nil => rfl
  | cons f fs ih => rw [listToJson, ih, List.map_cons]

/-! ## Formulas -/

/-- A connective takes in its operands a level or two further in. -/
theorem ofMember?_congr {levels : Nat} {operand operand' : Decoder Formula}
    (same : ∀ inner ≤ levels, ∀ v, operand inner v = operand' inner v) (connective : String)
    (v : Json) : ofMember? levels operand connective v = ofMember? levels operand' connective v := by
  have list : Decoder.list operand levels v = Decoder.list operand' levels v := by
    cases levels with
    | zero => rfl
    | succ inner =>
      cases v with
      | array items =>
        have items_eq : operand inner = operand' inner :=
          funext fun v => same inner (Nat.le_succ inner) v
        rw [Decoder.list, Decoder.list, items_eq]
      | _ => rfl
  unfold ofMember?
  rw [list, same levels (Nat.le_refl levels) v]

/-- Any two heights that the levels do not exceed give the same. -/
theorem ofJson?_congr {levels : Nat} : ∀ {height height' : Nat}, levels ≤ height →
    levels ≤ height' → ∀ v, ofJson? height levels v = ofJson? height' levels v := by
  induction levels using Nat.strongRecOn with
  | ind levels ih =>
    intro height height' enough enough' v
    cases levels with
    | zero => cases height <;> cases height' <;> rfl
    | succ levels =>
      obtain ⟨height, rfl⟩ := Nat.exists_eq_add_one_of_ne_zero (Nat.ne_zero_of_lt enough)
      obtain ⟨height', rfl⟩ := Nat.exists_eq_add_one_of_ne_zero (Nat.ne_zero_of_lt enough')
      cases v with
      | object members =>
        match members with
        | [] => rfl
        | [(connective, v)] =>
          refine ofMember?_congr (fun inner le v => ih inner ?_ ?_ ?_ v) connective v <;> omega
        | _ :: _ :: _ => rfl
      | _ => rfl

/-- **A connective opens a level,** and its operands are formulas again. -/
theorem decoder_object (levels : Nat) (connective : String) (v : Json) :
    decoder (levels + 1) (.object [(connective, v)]) = ofMember? levels decoder connective v :=
  ofMember?_congr (fun inner le v => ofJson?_congr le (Nat.le_refl inner) v) connective v

section Connectives

variable {α : Type} {d : Decoder α} {x : α} {v : Json} {f g : Formula} {fs : List Formula}
  {connective : String}

/-- **A formula is taken in as far as its operands are.** -/
theorem takes_object (make : Option α → Option Formula) (h : Takes d v x)
    (member : ∀ levels, ofMember? levels decoder connective v = make (d levels v))
    (taken : make (some x) = some f) (refused : make none = none) :
    Takes decoder (.object [(connective, v)]) f := by
  intro levels
  cases levels with
  | zero =>
    rw [if_neg Json.not_nesting_object_le_zero]
    rfl
  | succ levels =>
    rw [decoder_object, member, h levels]
    simp only [Json.nesting_object_le_iff, List.forall_mem_singleton]
    split
    · exact taken
    · exact refused

theorem takes_operands (h : ∀ f ∈ fs, Takes decoder f.toJson f) :
    Takes (.list decoder) (.array (listToJson fs)) fs := by
  rw [listToJson_eq]
  exact Decoder.takes_list h

end Connectives

/-- **A formula is taken in as far as the levels reach,** if the numbers of its propositions are
words. -/
theorem takes_decoder (f : Formula) (words : ∀ i ∈ f.atoms, i < UInt64.size) :
    Takes decoder f.toJson f := by
  have operand : ∀ g ∈ f.operands, Takes decoder g.toJson g := by
    intro g mem
    have := sizeOf_lt_of_mem_operands mem
    exact takes_decoder g fun i inside => words i (mem_atoms_iff_operands.2 (.inr ⟨g, mem, inside⟩))
  cases f with
  | constant value =>
    exact takes_object (Option.map constant) (Decoder.takes_bool value) (fun _ => rfl) rfl rfl
  | atom index =>
    have word := words index (mem_atoms_atom.2 rfl)
    exact takes_object (Option.map atom) (Decoder.takes_natural word) (fun _ => rfl) rfl rfl
  | negation f =>
    exact takes_object (Option.map negation) (operand f List.mem_cons_self) (fun _ => rfl) rfl rfl
  | next f =>
    exact takes_object (Option.map next) (operand f List.mem_cons_self) (fun _ => rfl) rfl rfl
  | globally f =>
    exact takes_object (Option.map globally) (operand f List.mem_cons_self) (fun _ => rfl) rfl rfl
  | eventually f =>
    exact takes_object (Option.map eventually) (operand f List.mem_cons_self) (fun _ => rfl) rfl
      rfl
  | conjunction fs =>
    exact takes_object (Option.map conjunction) (takes_operands operand) (fun _ => rfl) rfl rfl
  | disjunction fs =>
    exact takes_object (Option.map disjunction) (takes_operands operand) (fun _ => rfl) rfl rfl
  | strongUntil f g =>
    exact takes_object (ofPair? strongUntil) (takes_operands operand) (fun _ => rfl) rfl rfl
  | weakUntil f g =>
    exact takes_object (ofPair? weakUntil) (takes_operands operand) (fun _ => rfl) rfl rfl
  | strongRelease f g =>
    exact takes_object (ofPair? strongRelease) (takes_operands operand) (fun _ => rfl) rfl rfl
  | release f g =>
    exact takes_object (ofPair? release) (takes_operands operand) (fun _ => rfl) rfl rfl
termination_by sizeOf f

/-- **A formula is written as it is,** if the numbers of its propositions are words. -/
theorem isPlain_toJson (f : Formula) (words : ∀ i ∈ f.atoms, i < UInt64.size) :
    f.toJson.IsPlain := by
  have operand : ∀ g ∈ f.operands, g.toJson.IsPlain := by
    intro g mem
    have := sizeOf_lt_of_mem_operands mem
    exact isPlain_toJson g fun i inside => words i (mem_atoms_iff_operands.2 (.inr ⟨g, mem, inside⟩))
  cases f with
  | constant value => simp [toJson, Json.IsPlain]
  | atom index => simpa [toJson, Json.IsPlain, Json.MembersPlain] using words
  | _ => simpa [toJson, operands, listToJson_eq] using operand
termination_by sizeOf f

/-- What a formula adds to the nesting of its operands: an object, and for several operands an
array. -/
def nestingCosts : Costs where
  leaf := 1
  negation := 1
  junction := 2
  temporal := 2

/-- **Written formulas grow by these costs.** -/
theorem measured_nesting : Measured (fun f => f.toJson.nesting) nestingCosts := by
  constructor <;> intros <;>
    simp only [toJson, listToJson, Formula.and, Formula.or, nestingCosts, Json.nesting,
      Json.listNesting, Json.memberNesting] <;>
    omega

end Formula

/-! ## Outcomes -/

namespace LabelledFormula

variable {labelled : LabelledFormula}

theorem isPlain_toJson (words : ∀ i ∈ labelled.formula.atoms, i < UInt64.size) :
    labelled.toJson.IsPlain := by
  simp [toJson, Formula.isPlain_toJson labelled.formula words]

/-- Two levels stand around the formula. -/
theorem nesting_toJson_le_iff {levels : Nat} :
    labelled.toJson.nesting ≤ levels + 2 ↔ labelled.formula.toJson.nesting ≤ levels + 1 := by
  simp [toJson]

theorem takes_decoder (words : ∀ i ∈ labelled.formula.atoms, i < UInt64.size) :
    Takes decoder labelled.toJson labelled := by
  have formula := Formula.takes_decoder labelled.formula words
  have propositions := Decoder.takes_list fun name (_ : name ∈ labelled.propositions) =>
    Decoder.takes_text name
  refine Decoder.takes_record (by simp) (by simp) (isPlain_toJson words) fun levels => ?_
  refine (required_bind rfl formula (required_last rfl propositions)).trans ?_
  simp

end LabelledFormula

namespace TranslatedDefinition

variable {d : TranslatedDefinition}

theorem isPlain_toJson (words : ∀ i ∈ d.formula.formula.atoms, i < UInt64.size) :
    d.toJson.IsPlain := by
  simp [toJson, LabelledFormula.isPlain_toJson words]

theorem nesting_toJson_le_iff {levels : Nat} :
    d.toJson.nesting ≤ levels + 3 ↔ d.formula.formula.toJson.nesting ≤ levels + 1 := by
  simp [toJson, LabelledFormula.nesting_toJson_le_iff]

theorem takes_decoder (words : ∀ i ∈ d.formula.formula.atoms, i < UInt64.size) :
    Takes decoder d.toJson d := by
  have formula := LabelledFormula.takes_decoder words
  refine Decoder.takes_record (by simp) (by simp) (isPlain_toJson words) fun levels => ?_
  refine (required_bind rfl (Decoder.takes_text d.name) (required_last rfl formula)).trans ?_
  simp

end TranslatedDefinition

namespace DefinitionFailure

variable (f : DefinitionFailure)

theorem isPlain_toJson : f.toJson.IsPlain := by simp [toJson]

theorem takes_decoder : Takes decoder f.toJson f := by
  refine Decoder.takes_record (by simp) (by simp) f.isPlain_toJson fun levels => ?_
  refine (required_bind rfl (Decoder.takes_text f.name)
    (required_last rfl (Decoder.takes_text f.message))).trans ?_
  simp

end DefinitionFailure

namespace BatchStats

/-- Whether the numbers are below `2 ^ 64`. -/
structure AreWords (s : BatchStats) : Prop where
  definitionCount : s.definitionCount < UInt64.size
  convertedCount : s.convertedCount < UInt64.size
  failedCount : s.failedCount < UInt64.size
  propositionCount : s.propositionCount < UInt64.size
  totalTimeMs : s.totalTimeMs < UInt64.size

variable {s : BatchStats}

theorem isPlain_toJson (words : s.AreWords) : s.toJson.IsPlain := by
  simp [toJson, Json.IsPlain, words.1, words.2, words.3, words.4, words.5]

theorem takes_decoder (words : s.AreWords) : Takes decoder s.toJson s := by
  refine Decoder.takes_record (by simp) (by simp) (isPlain_toJson words) fun levels => ?_
  refine (required_bind rfl (Decoder.takes_natural words.definitionCount)
    (required_bind rfl (Decoder.takes_natural words.convertedCount)
    (required_bind rfl (Decoder.takes_natural words.failedCount)
    (required_bind rfl (Decoder.takes_natural words.propositionCount)
    (required_last rfl (Decoder.takes_natural words.totalTimeMs)))))).trans ?_
  simp

end BatchStats

namespace BatchOutcome

/-- Whether the counts are below `2 ^ 64` and so are the numbers of the propositions. -/
structure HasWords (o : BatchOutcome) : Prop where
  stats : o.stats.AreWords
  atoms : ∀ t ∈ o.formulas, ∀ i ∈ t.formula.formula.atoms, i < UInt64.size

variable {o : BatchOutcome}

theorem isPlain_toJson (words : o.HasWords) : o.toJson.IsPlain := by
  have formulas : ∀ t ∈ o.formulas, t.toJson.IsPlain := fun t mem =>
    TranslatedDefinition.isPlain_toJson (words.atoms t mem)
  simp [toJson, or_imp, forall_and, BatchStats.isPlain_toJson words.stats,
    DefinitionFailure.isPlain_toJson]
  exact formulas

/-- **The formulas of an outcome stand four levels deep,** and nothing else is nested as deeply. -/
theorem nesting_toJson_le_iff {levels : Nat} :
    o.toJson.nesting ≤ levels + 5 ↔
      ∀ t ∈ o.formulas, t.formula.formula.toJson.nesting ≤ levels + 1 := by
  simp [toJson, or_imp, forall_and, DefinitionFailure.toJson, BatchStats.toJson,
    TranslatedDefinition.nesting_toJson_le_iff]

/-- **An outcome is taken in as far as the levels reach.** -/
theorem takes_decoder (words : o.HasWords) : Takes decoder o.toJson o := by
  have formulas := Decoder.takes_list fun t mem =>
    TranslatedDefinition.takes_decoder (words.atoms t mem)
  have failures := Decoder.takes_list fun f (_ : f ∈ o.failures) => f.takes_decoder
  have stats := BatchStats.takes_decoder words.stats
  obtain ⟨_, _, _, error⟩ := o
  refine Decoder.takes_record (by cases error <;> simp) (by cases error <;> simp)
    (isPlain_toJson words) fun levels => ?_
  refine (required_bind rfl formulas (required_bind rfl failures (required_bind rfl stats
    ((optional_last error ?_).trans (if_pos trivial).symm)))).trans ?_
  · cases error <;> rfl
  · cases error <;> simp

end BatchOutcome
end ActorLtl
