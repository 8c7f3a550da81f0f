/-
# What operators, sources and reports keep when they are written and taken in

An operator is taken in as it is written, each as itself (`BinaryOperator.takes_decoder` and its
like), and so is the source of a batch.  A report of automata is written with the batch that they are of.  It is read back exactly if
none of the batch's formulas is nested more than 122 levels deep (`AutomataReport.readBack?_eq`),
one less than for the outcome by itself, since the report stands around it.
-/

import ActorLtl.Engine.Json
import ActorLtl.Operator.Json
import ActorLtl.Proofs.Encoding
import ActorLtl.Proofs.Reading

namespace ActorLtl

open Decoder (Takes)
open Decoder.Fields (required_bind required_last)

/-! ## Operators -/

theorem Comparison.takes_decoder (c : Comparison) : Takes decoder c.toJson c :=
  Decoder.takes_oneOf c.lookup_name

theorem Arithmetic.takes_decoder (a : Arithmetic) : Takes decoder a.toJson a :=
  Decoder.takes_oneOf a.lookup_name

theorem UnaryOperator.takes_decoder (op : UnaryOperator) : Takes decoder op.toJson op := by
  cases op <;> exact Decoder.takes_oneOf rfl

theorem TemporalCall.takes_decoder (call : TemporalCall) : Takes decoder call.toJson call := by
  cases call <;> exact Decoder.takes_oneOf rfl

/-- **An operator is taken in as it is written.**  One of the two groups takes a level for its
group. -/
theorem BinaryOperator.takes_decoder (op : BinaryOperator) : Takes decoder op.toJson op := by
  -- Without a level left, a group is looked for among the names, where no object is.
  have grouped {key text : String} {op : BinaryOperator}
      (inside : ∀ levels, decoder (levels + 1) (.object [(key, .text text)]) = some op) :
      Takes decoder (.object [(key, .text text)]) op := by
    intro levels
    cases levels with
    | zero =>
      rw [if_neg Json.not_nesting_object_le_zero]
      rfl
    | succ levels => rw [inside, if_pos (by simp)]
  have named {text : String} {op : BinaryOperator} (listed : names.lookup text = some op) :
      Takes decoder (.text text) op := by
    intro levels
    have inside := Decoder.takes_oneOf listed levels
    cases levels <;> exact inside
  cases op with
  | comparison c =>
    refine grouped fun levels => ?_
    show (Comparison.decoder levels c.toJson).map comparison = some (comparison c)
    rw [c.takes_decoder levels, if_pos (by simp [Comparison.toJson]), Option.map_some]
  | arithmetic a =>
    refine grouped fun levels => ?_
    show (Arithmetic.decoder levels a.toJson).map arithmetic = some (arithmetic a)
    rw [a.takes_decoder levels, if_pos (by simp [Arithmetic.toJson]), Option.map_some]
  | _ => exact named rfl

/-! ## Sources -/

namespace BatchSource

variable (s : BatchSource)

theorem isPlain_toJson : s.toJson.IsPlain := by simp [toJson]

theorem takes_decoder : Takes decoder s.toJson s := by
  refine Decoder.takes_record (by simp) (by simp) s.isPlain_toJson fun levels => ?_
  refine (required_bind rfl (Decoder.takes_text s.model)
    (required_last rfl (Decoder.takes_text s.property))).trans ?_
  simp

end BatchSource

/-! ## Automata -/

namespace Automaton

variable {a : Automaton}

theorem isPlain_toJson (word : a.executionTimeMs < UInt64.size) : a.toJson.IsPlain := by
  have time : (Json.natural a.executionTimeMs).IsPlain := by simpa only [Json.IsPlain] using word
  simp [toJson, time]

theorem takes_decoder (word : a.executionTimeMs < UInt64.size) : Takes decoder a.toJson a := by
  have propositions := Decoder.takes_list fun name (_ : name ∈ a.propositions) =>
    Decoder.takes_text name
  refine Decoder.takes_record (by simp) (by simp) (isPlain_toJson word) fun levels => ?_
  refine (required_bind rfl (Decoder.takes_text a.formula) (required_bind rfl propositions
    (required_bind rfl (Decoder.takes_text a.hoa)
    (required_last rfl (Decoder.takes_natural word))))).trans ?_
  simp

end Automaton

namespace NamedAutomaton

variable {n : NamedAutomaton}

theorem isPlain_toJson (word : n.automaton.executionTimeMs < UInt64.size) : n.toJson.IsPlain := by
  simp [toJson, Automaton.isPlain_toJson word]

theorem takes_decoder (word : n.automaton.executionTimeMs < UInt64.size) :
    Takes decoder n.toJson n := by
  refine Decoder.takes_record (by simp) (by simp) (isPlain_toJson word) fun levels => ?_
  refine (required_bind rfl (Decoder.takes_text n.name)
    (required_last rfl (Automaton.takes_decoder word))).trans ?_
  simp

end NamedAutomaton

namespace AutomataReport

/-- Whether all numbers in the report are below `2 ^ 64`. -/
structure HasWords (r : AutomataReport) : Prop where
  batch : r.batch.HasWords
  times : ∀ n ∈ r.automata, n.automaton.executionTimeMs < UInt64.size

variable {r : AutomataReport} {layout : Layout}

theorem isPlain_toJson (words : r.HasWords) : r.toJson.IsPlain := by
  have automata : ∀ n ∈ r.automata, n.toJson.IsPlain := fun n mem =>
    NamedAutomaton.isPlain_toJson (words.times n mem)
  simp [toJson, or_imp, forall_and, BatchOutcome.isPlain_toJson words.batch,
    DefinitionFailure.isPlain_toJson]
  exact automata

/-- **A report is taken in as far as the levels reach.** -/
theorem takes_decoder (words : r.HasWords) : Takes decoder r.toJson r := by
  have automata := Decoder.takes_list fun n mem => NamedAutomaton.takes_decoder (words.times n mem)
  have failures := Decoder.takes_list fun f (_ : f ∈ r.engineFailures) => f.takes_decoder
  refine Decoder.takes_record (by simp) (by simp) (isPlain_toJson words) fun levels => ?_
  refine (required_bind rfl (BatchOutcome.takes_decoder words.batch)
    (required_bind rfl automata (required_last rfl failures))).trans ?_
  simp

/-- **Of a report it is the formulas that are nested deeply,** five levels inside it. -/
theorem nesting_toJson_le_iff {levels : Nat} :
    r.toJson.nesting ≤ levels + 6 ↔
      ∀ t ∈ r.batch.formulas, t.formula.formula.toJson.nesting ≤ levels + 1 := by
  simp [toJson, or_imp, forall_and, DefinitionFailure.toJson, NamedAutomaton.toJson,
    Automaton.toJson, BatchOutcome.nesting_toJson_le_iff]

/-- What is read from the text of a report. -/
def readBack? (layout : Layout) (r : AutomataReport) : Option AutomataReport :=
  (Json.parse? (r.toJson.write layout)).bind (decoder fileLevels)

/-- **A report is read back if its formulas are not nested too deeply,** and refused otherwise. -/
theorem readBack?_eq (words : r.HasWords) :
    r.readBack? layout = if ∀ t ∈ r.batch.formulas, t.formula.formula.toJson.nesting ≤ 122
      then some r else none := by
  rw [readBack?, Json.parse?_write layout (isPlain_toJson words), Option.bind_some,
    takes_decoder words]
  exact if_congr (@nesting_toJson_le_iff r 121) rfl rfl

end AutomataReport
end ActorLtl
