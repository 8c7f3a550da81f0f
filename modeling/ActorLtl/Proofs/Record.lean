/-
# What a report says

The report of the command `translate` has one record for each property file, in their order
(`CommandLine.records_eq`), and each record says what its batch came to
(`CommandLine.isRecord_batchRecord`).  The exit status is told from all outcomes: it is 0 exactly if
every batch has a property model and every definition a formula, and the report could be written
(`CommandLine.report_status`).
-/

import ActorLtl.CommandLine
import ActorLtl.Proofs.Encoding
import ActorLtl.Proofs.Reading
import Mathlib.Data.List.Forall2

namespace ActorLtl

/-! ## Lists with positions -/

section Positions

variable {α β γ : Type}

theorem getElem?_mapIdx_eq_some {f : Nat → α → β} {xs : List α} {k : Nat} {a : α}
    (stands : xs[k]? = some a) : (xs.mapIdx f)[k]? = some (f k a) := by
  rw [List.getElem?_mapIdx, stands]
  rfl

/-- What holds of every entry of a list that is made position by position. -/
theorem forall_mem_mapIdx {f : Nat → α → β} {xs : List α} {P : β → Prop} :
    (∀ b ∈ xs.mapIdx f, P b) ↔ ∀ (k : Nat) (a : α), xs[k]? = some a → P (f k a) := by
  constructor
  · exact fun all k a stands => all _ (List.mem_of_getElem? (getElem?_mapIdx_eq_some stands))
  · intro each b mem
    obtain ⟨k, inside, rfl⟩ := List.mem_mapIdx.1 mem
    exact each k _ (List.getElem?_eq_getElem inside)

theorem mapIdx_map {f : α → β} {g : Nat → β → γ} {xs : List α} :
    (xs.map f).mapIdx g = xs.mapIdx fun k a => g k (f a) := by
  induction xs generalizing g with
  | nil => rfl
  | cons a xs ih => rw [List.map_cons, List.mapIdx_cons, List.mapIdx_cons, ih]

theorem map_zip_mapIdx {f : Nat → α → β} {g : α × β → γ} {xs : List α} :
    (xs.zip (xs.mapIdx f)).map g = xs.mapIdx fun k a => g (a, f k a) := by
  induction xs generalizing f with
  | nil => rfl
  | cons a xs ih =>
    rw [List.mapIdx_cons, List.zip_cons_cons, List.map_cons, List.mapIdx_cons, ih]

/-- What each entry becomes stands at the place of the entry. -/
theorem forall₂_map {R : α → β → Prop} {f : α → β} (each : ∀ a, R a (f a)) (xs : List α) :
    List.Forall₂ R xs (xs.map f) :=
  List.forall₂_map_right_iff.2 (List.forall₂_same.2 fun a _ => each a)

end Positions

namespace CommandLine

/-! ## The record of a batch -/

/-- Whether a value says of a definition what it has come to: its name, the text of its formula and
the propositions of it. -/
structure IsFormulaRecord (d : TranslatedDefinition) (v : Json) : Prop where
  name : v.member? "name" = some (.text d.name)
  formula : v.member? "formula" = some (.text d.formula.text)
  propositions : v.member? "propositions" = some (.array (d.formula.propositions.map .text))

/-- Whether a value says of a definition that was left out why. -/
structure IsFailureRecord (f : DefinitionFailure) (v : Json) : Prop where
  name : v.member? "name" = some (.text f.name)
  message : v.member? "message" = some (.text f.message)

/-- Whether a value holds the numbers of a batch. -/
structure IsStatsRecord (s : BatchStats) (v : Json) : Prop where
  definitionCount : v.member? "definition_count" = some (.natural s.definitionCount)
  convertedCount : v.member? "converted_count" = some (.natural s.convertedCount)
  failedCount : v.member? "failed_count" = some (.natural s.failedCount)
  propositionCount : v.member? "proposition_count" = some (.natural s.propositionCount)
  totalTimeMs : v.member? "total_time_ms" = some (.natural s.totalTimeMs)

/-- Whether a value says of a property file what its batch has come to: each definition in its
order, those with formulas and those without, the numbers, and the error exactly if there is
one. -/
structure IsRecord (property : String) (o : BatchOutcome) (v : Json) : Prop where
  property : v.member? "property" = some (.text property)
  formulas : ∃ vs, v.member? "formulas" = some (.array vs) ∧
    List.Forall₂ IsFormulaRecord o.formulas vs
  failures : ∃ vs, v.member? "failures" = some (.array vs) ∧
    List.Forall₂ IsFailureRecord o.failures vs
  stats : ∃ s, v.member? "stats" = some s ∧ IsStatsRecord o.stats s
  error : v.member? "error" = o.error.map .text

variable {σ : Type} {host : Host (StateM σ)} {c : TranslatorConfig} {properties : List String}
  {output : Option String} {outcomes : List BatchOutcome} {before : σ}

theorem isFormulaRecord (d : TranslatedDefinition) : IsFormulaRecord d (formulaRecord d) :=
  ⟨rfl, rfl, rfl⟩

theorem isFailureRecord (f : DefinitionFailure) : IsFailureRecord f f.toJson := ⟨rfl, rfl⟩

theorem isStatsRecord (s : BatchStats) : IsStatsRecord s s.toJson := ⟨rfl, rfl, rfl, rfl, rfl⟩

/-- **The record of a batch says what the batch has come to.** -/
theorem isRecord_batchRecord (property : String) (o : BatchOutcome) :
    IsRecord property o (batchRecord property o) where
  property := rfl
  formulas := ⟨_, rfl, forall₂_map isFormulaRecord o.formulas⟩
  failures := ⟨_, rfl, forall₂_map isFailureRecord o.failures⟩
  stats := ⟨_, rfl, isStatsRecord o.stats⟩
  error := by
    obtain ⟨formulas, failures, stats, error⟩ := o
    cases error <;> rfl

/-- **There is one record for each property file,** in their order. -/
theorem records_eq (outcome : Nat → String → BatchOutcome) :
    records properties (properties.mapIdx outcome) =
      .array (properties.mapIdx fun k property => batchRecord property (outcome k property)) :=
  congrArg Json.array map_zip_mapIdx

/-- **What is written is a JSON text** if the counts of the outcomes are words. -/
theorem isPlain_records (words : ∀ outcome ∈ outcomes, outcome.stats.AreWords) :
    (records properties outcomes).IsPlain := by
  have plain : ∀ property, ∀ outcome ∈ outcomes, (batchRecord property outcome).IsPlain := by
    intro property outcome mem
    simp [batchRecord, formulaRecord, or_imp, forall_and,
      BatchStats.isPlain_toJson (words outcome mem), DefinitionFailure.isPlain_toJson]
  rw [records, Json.isPlain_array]
  intro v mem
  obtain ⟨⟨property, outcome⟩, paired, rfl⟩ := List.mem_map.1 mem
  exact plain property outcome (List.of_mem_zip paired).2

/-- A text is read as what was written, over several lines or in one. -/
theorem parse?_jsonText {v : Json} (plain : v.IsPlain) :
    Json.parse? (jsonText c.output v) = some v := by
  rw [jsonText]
  split
  · exact Json.parse?_write (.indented 0) plain
  · exact Json.parse?_write .compact plain

/-! ## The exit status -/

/-- **A batch is complete** if it has a property model and skips no definition. -/
theorem isComplete_translate_iff {compilers : Compilers Id} {config : BatchConfig}
    {source : BatchSource} {milliseconds : Nat} :
    isComplete ((Batch.translate compilers config source).after milliseconds) = true ↔
      (Batch.translate compilers config source).error = none ∧
        (Batch.translate compilers config source).failures = [] := by
  have counted : (Batch.translate compilers config source : Id BatchOutcome).stats.failedCount =
      (Batch.translate compilers config source : Id BatchOutcome).failures.length := by
    rw [Batch.translate_eq_map]
    show (Batch.outcomeOfCompiled config (Batch.compile compilers source)).stats.failedCount =
      (Batch.outcomeOfCompiled config (Batch.compile compilers source)).failures.length
    cases (Batch.compile compilers source : Id (Except SourceError PropertyModel)) <;> rfl
  simp [isComplete, BatchOutcome.isFailed, BatchOutcome.after, counted]

/-- **The exit status is 0 exactly if everything is there,** and 1 otherwise. -/
theorem translateStatus_eq_iff :
    (translateStatus outcomes = 0 ↔ ∀ outcome ∈ outcomes, isComplete outcome = true) ∧
      (translateStatus outcomes ≠ 0 → translateStatus outcomes = 1) := by
  rw [translateStatus, ← List.all_eq_true]
  cases outcomes.all isComplete <;> decide

/-! ## The report -/

section Report

variable (host) (output) (text : String)

/-- What writing a text leaves: a file has it as it is, and the standard output as a line. -/
theorem writeOutput_run_snd :
    ((writeOutput host output text).run before).2 =
      output.elim ((host.print (text ++ "\n")).run before).2
        fun path => ((host.files.writeText path text).run before).2 := by
  cases output <;> rfl

/-- **Writing succeeds** unless there is a file to be written to and it cannot be. -/
theorem writeOutput_run_fst_iff :
    ((writeOutput host output text).run before).1 = true ↔
      ∀ path, output = some path → ((host.files.writeText path text).run before).1 = .ok () := by
  cases output with
  | none => exact iff_of_true rfl fun _ there => nomatch there
  | some path =>
    have written : ((writeOutput host (some path) text).run before).1 =
        ((host.files.writeText path text).run before).1.isOk := rfl
    have answered (answer : Except FileError Unit) :
        answer.isOk = true ↔ ∀ path', some path = some path' → answer = .ok () := by
      cases answer <;> simp [Except.isOk, Except.toBool]
    rw [written, answered]
    exact forall₂_congr fun path' same => by rw [Option.some.inj same]

end Report

/-- A dry run writes nothing. -/
theorem report_run_of_dryRun (dry : c.output.dryRun = true) :
    (report host c.output properties output outcomes).run before =
      (translateStatus outcomes, before) := by
  rw [report, dry]
  rfl

/-- **A report is written at once.** -/
theorem report_run (wet : c.output.dryRun = false) :
    (report host c.output properties output outcomes).run before =
      let wrote := (writeOutput host output
        (jsonText c.output (records properties outcomes))).run before
      (if wrote.1 then translateStatus outcomes else failure, wrote.2) := by
  rw [report, wet]
  rfl

/-- **The status of a report is 0 exactly if it is written or need not be, and all is there;** and 1
otherwise. -/
theorem report_status :
    let ended := (report host c.output properties output outcomes).run before
    let text := jsonText c.output (records properties outcomes)
    (ended.1 = 0 ↔ (c.output.dryRun = true ∨ ∀ path, output = some path →
        ((host.files.writeText path text).run before).1 = .ok ()) ∧
      ∀ outcome ∈ outcomes, isComplete outcome = true) ∧ (ended.1 ≠ 0 → ended.1 = 1) := by
  dsimp only
  rw [← writeOutput_run_fst_iff, ← translateStatus_eq_iff.1]
  cases dry : c.output.dryRun with
  | true =>
    rw [report_run_of_dryRun dry]
    exact ⟨(and_iff_right (.inl rfl)).symm, translateStatus_eq_iff.2⟩
  | false =>
    rw [report_run dry]
    dsimp only
    cases ((writeOutput host output
      (jsonText c.output (records properties outcomes))).run before).1 with
    | true => exact ⟨(and_iff_right (.inr rfl)).symm, translateStatus_eq_iff.2⟩
    | false => exact ⟨by simp [failure], fun _ => rfl⟩

/-- **What becomes of outcomes that are reported,** each told by the position of its file. -/
theorem report_mapIdx (host : Host (StateM σ)) (c : TranslatorConfig) (properties : List String)
    (output : Option String) (before : σ) (outcome : Nat → String → BatchOutcome) :
    let rs := properties.mapIdx fun k property => batchRecord property (outcome k property)
    let text := if c.output.prettyPrint then (Json.array rs).pretty else (Json.array rs).compact
    let ended := (report host c.output properties output (properties.mapIdx outcome)).run before
    ((∀ (k : Nat) (property : String), properties[k]? = some property →
        (outcome k property).stats.AreWords) → Json.parse? text = some (.array rs)) ∧
      (c.output.dryRun = true → ended.2 = before) ∧
      (c.output.dryRun = false → ended.2 =
        output.elim ((host.print (text ++ "\n")).run before).2
          fun path => ((host.files.writeText path text).run before).2) ∧
      (ended.1 = 0 ↔ (c.output.dryRun = true ∨ ∀ path, output = some path →
          ((host.files.writeText path text).run before).1 = .ok ()) ∧
        ∀ (k : Nat) (property : String), properties[k]? = some property →
          isComplete (outcome k property) = true) ∧
      (ended.1 ≠ 0 → ended.1 = 1) := by
  intro rs text ended
  have written : jsonText c.output (records properties (properties.mapIdx outcome)) = text := by
    rw [records_eq]
    rfl
  refine ⟨fun words => ?_, fun dry => ?_, fun wet => ?_, ?_⟩
  · rw [← written, ← records_eq]
    exact parse?_jsonText (isPlain_records (forall_mem_mapIdx.2 words))
  · exact congrArg Prod.snd (report_run_of_dryRun dry)
  · rw [← written, ← writeOutput_run_snd]
    exact congrArg Prod.snd (report_run wet)
  · rw [← written, ← forall_mem_mapIdx (P := (isComplete · = true))]
    exact report_status

end CommandLine
end ActorLtl
