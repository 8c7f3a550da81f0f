/-
# From formulas to automata

An engine may remember what it has been asked, so what it answers to a formula depends on the
formulas before.  A batch asks it for each of its formulas once, in order, and nothing else
(`Batch.asked_askAll`).  Every answer makes an automaton or a failure of the definition that was
asked about, so no definition is lost: the automata, the failures of the engine and the failures of
the batch are as many as the definitions.
-/

import ActorLtl.CommandLine
import ActorLtl.Proofs.Loading
import ActorLtl.Proofs.Opening
import ActorLtl.Proofs.Partition

namespace ActorLtl

/-- **What falls on one of two sides is counted once.** -/
theorem length_filterMap_add {α β γ : Type} {f : α → Option β} {g : α → Option γ}
    (apart : ∀ a, (g a).isSome ↔ f a = none) (as : List α) :
    (as.filterMap f).length + (as.filterMap g).length = as.length := by
  induction as with
  | nil => rfl
  | cons a as ih =>
    cases first : f a with
    | none =>
      obtain ⟨b, second⟩ := Option.isSome_iff_exists.1 ((apart a).2 first)
      rw [List.filterMap_cons_none first, List.filterMap_cons_some second, List.length_cons,
        List.length_cons]
      omega
    | some b =>
      have second : g a = none := by
        rw [← Option.not_isSome_iff_eq_none, apart, first]
        nofun
      rw [List.filterMap_cons_some first, List.filterMap_cons_none second, List.length_cons,
        List.length_cons]
      omega

/-! ## Asking an engine -/

section Engine

variable {σ : Type} {engine : Engine (StateM σ)} {s s' : σ} {answers : List Answered}

/-- **Who keeps a list of the questions finds each of them once,** in order. -/
theorem Asked.log_eq (asked : Asked engine s answers s') {log : σ → List LabelledFormula}
    (keeps : ∀ f t, log ((engine f).run t).2 = log t ++ [f]) :
    log s' = log s ++ (answers.map Prod.fst).map (·.formula) := by
  induction asked with
  | nothing s => exact (List.append_nil _).symm
  | @next s s' s'' d answer answers answered _ ih =>
    have noted := keeps d.formula s
    rw [answered] at noted
    rw [ih, noted, List.append_assoc]
    rfl

namespace Answered

/-- **What an engine has answered is sorted,** by taking the automata and the failures apart. -/
theorem sorted (answers : List Answered) :
    Sorted answers (answers.filterMap automaton?) (answers.filterMap failure?) := by
  induction answers with
  | nil => exact .nil
  | cons a answers ih =>
    obtain ⟨d, answer⟩ := a
    cases answer with
    | ok a => exact .automaton d a ih
    | error cause => exact .failure d cause ih

variable {automata : List NamedAutomaton} {failures : List DefinitionFailure}

/-- **Every answer is in one of the lists.** -/
theorem Sorted.length_add (h : Sorted answers automata failures) :
    automata.length + failures.length = answers.length := by
  induction h with
  | nil => rfl
  | automaton d a _ ih =>
    rw [List.length_cons, List.length_cons, Nat.succ_add, ih]
  | failure d cause _ ih =>
    rw [List.length_cons, List.length_cons, Nat.add_succ, ih]

/-- Without failures the automata are called as their definitions. -/
theorem Sorted.map_name (h : Sorted answers automata []) :
    automata.map (·.name) = answers.map (·.1.name) := by
  generalize none : ([] : List DefinitionFailure) = failures at h
  induction h with
  | nil => rfl
  | automaton d a _ ih => exact congrArg (d.name :: ·) (ih none)
  | failure d cause _ ih => cases none

end Answered

namespace Batch

/-- The engine is asked for the first formula and, in the state it leaves, for the others. -/
theorem askAll_cons_run (engine : Engine (StateM σ)) (d : TranslatedDefinition)
    (ds : List TranslatedDefinition) (s : σ) :
    (askAll engine (d :: ds)).run s =
      ((d, ((engine d.formula).run s).1) ::
          ((askAll engine ds).run ((engine d.formula).run s).2).1,
        ((askAll engine ds).run ((engine d.formula).run s).2).2) := by
  rw [askAll, List.mapM_cons]
  rfl

/-- **An engine is asked for each formula once, in order.** -/
theorem asked_askAll (engine : Engine (StateM σ)) (ds : List TranslatedDefinition) (s : σ) :
    Asked engine s ((askAll engine ds).run s).1 ((askAll engine ds).run s).2 ∧
      ((askAll engine ds).run s).1.map Prod.fst = ds := by
  induction ds generalizing s with
  | nil => exact ⟨.nothing s, rfl⟩
  | cons d ds ih =>
    obtain ⟨asked, questions⟩ := ih ((engine d.formula).run s).2
    rw [askAll_cons_run]
    exact ⟨.next rfl asked, congrArg (d :: ·) questions⟩

/-- What is made of the formulas of a batch, told from the answers. -/
theorem toAutomata_run (engine : Engine (StateM σ)) (batch : BatchOutcome) (s : σ) :
    (toAutomata engine batch).run s =
      (⟨batch, ((askAll engine batch.formulas).run s).1.filterMap Answered.automaton?,
          ((askAll engine batch.formulas).run s).1.filterMap Answered.failure?⟩,
        ((askAll engine batch.formulas).run s).2) := rfl

/-- An engine that gives out no identities is asked as if there were none. -/
theorem askAll_liftM_run (engine : Engine (StateM σ)) (ds : List TranslatedDefinition) (n : NodeId)
    (s : σ) :
    ((askAll (fun f => (liftM (engine f) : StateT NodeId (StateM σ) _)) ds).run n).run s =
      ((((askAll engine ds).run s).1, n), ((askAll engine ds).run s).2) := by
  induction ds generalizing s with
  | nil => rfl
  | cons d ds ih =>
    have first : ((askAll (fun f => (liftM (engine f) : StateT NodeId (StateM σ) _))
        (d :: ds)).run n).run s =
        let later := ((askAll (fun f => (liftM (engine f) : StateT NodeId (StateM σ) _)) ds).run
          n).run ((engine d.formula).run s).2
        (((d, ((engine d.formula).run s).1) :: later.1.1, later.1.2), later.2) := by
      rw [askAll, List.mapM_cons]
      rfl
    rw [first, ih, askAll_cons_run]

end Batch
end Engine

/-! ## Counting definitions -/

namespace Batch

variable {σ : Type}

/-- **The formulas and the failures of a property model** are as many as the selected
definitions. -/
theorem length_formulas_add (config : BatchConfig) (p : PropertyModel) (r : Registry) :
    ((translateModel config p).run r).1.formulas.length +
        ((translateModel config p).run r).1.failures.length =
      (p.selected config.includeLtlDefinitions).length :=
  (length_filterMap_add Assembled.failure?_isSome_iff _).trans
    (length_assembleAll config.maxExpressionDepth.toNat
      (p.selected config.includeLtlDefinitions) ∅)

/-- Without failures every selected definition has a formula. -/
theorem map_name_formulas (config : BatchConfig) (p : PropertyModel) (r : Registry)
    (complete : ((translateModel config p).run r).1.failures = []) :
    ((translateModel config p).run r).1.formulas.map (·.name) =
      (p.selected config.includeLtlDefinitions).map (·.name) := by
  rw [failures_translateModel, List.filterMap_eq_nil_iff] at complete
  have within : ∀ d ∈ p.selected config.includeLtlDefinitions,
      decide (d.IsWithin config.maxExpressionDepth.toNat) = true := by
    intro d selected
    refine decide_eq_true (Decidable.byContradiction fun deep => ?_)
    obtain ⟨message, failed⟩ := Definition.failure?_of_not_isWithin deep
    cases failed.symm.trans (complete d selected)
  rw [formulas_translateModel, map_name_formulasFrom, accepted, List.filter_eq_self.2 within]

/-- Translating a batch to automata with an engine that gives out no identities. -/
theorem translateToAutomata_liftM_run (compilers : Compilers (StateT NodeId (StateM σ)))
    (config : BatchConfig) (engine : Engine (StateM σ)) (source : BatchSource) (n : NodeId)
    (s : σ) :
    ((translateToAutomata compilers config (fun f => liftM (engine f)) source).run n).run s =
      let compiled := ((compile compilers source).run n).run s
      let reported := (toAutomata engine (outcomeOfCompiled config compiled.1.1)).run compiled.2
      ((reported.1, compiled.1.2), reported.2) := by
  rw [translateToAutomata, run_bind_run, translate_run_run, toAutomata, run_bind_run,
    askAll_liftM_run]
  rfl

/-- **No definition is lost among the answers.**  A batch whose formulas have been asked about has
as many automata, failures of the engine and failures of its own as selected definitions; and if
there are no failures, the automata are those of the definitions in order. -/
theorem length_automata_add (config : BatchConfig) (p : PropertyModel) {answers : List Answered}
    {automata : List NamedAutomaton} {failures : List DefinitionFailure}
    (asked : answers.map Prod.fst = ((translateModel config p).run ∅).1.formulas)
    (sorted : Answered.Sorted answers automata failures) :
    automata.length + failures.length + ((translateModel config p).run ∅).1.failures.length =
      (p.selected config.includeLtlDefinitions).length := by
  rw [sorted.length_add, ← length_formulas_add config p ∅, ← asked, List.length_map]

/-- **Every selected definition has an automaton** exactly if nothing has failed. -/
theorem map_name_automata_iff (config : BatchConfig) (p : PropertyModel) {answers : List Answered}
    {automata : List NamedAutomaton} {failures : List DefinitionFailure}
    (asked : answers.map Prod.fst = ((translateModel config p).run ∅).1.formulas)
    (sorted : Answered.Sorted answers automata failures) :
    automata.map (·.name) = (p.selected config.includeLtlDefinitions).map (·.name) ↔
      ((translateModel config p).run ∅).1.failures = [] ∧ failures = [] := by
  have conserved := length_automata_add config p asked sorted
  constructor
  · intro all
    have as_many := congrArg List.length all
    rw [List.length_map, List.length_map] at as_many
    constructor <;> exact List.eq_nil_of_length_eq_zero (by omega)
  · rintro ⟨translated, rfl⟩
    rw [sorted.map_name, ← map_name_formulas config p ∅ translated, ← asked, List.map_map]
    rfl

end Batch

/-! ## The command -/

namespace CommandLine

variable {σ : Type} {host : Host (StateM σ)} {c : TranslatorConfig} {model property : String}
  {output : Option String} {n : NodeId} {s found : σ} {owl : Owl}

/-- **The status of `nba`** with an engine that is found and an output that can be written, told
from the batch and the engine's answers. -/
theorem nba_status (sought : (Owl.ofConfig host.search c).run s = (.ok owl, found)) :
    let compiled :=
      ((Batch.compile (Batch.fileCompilers host.files) ⟨model, property⟩).run n).run found
    let batch := Batch.outcomeOfCompiled c.batch compiled.1.1
    let reported := (Batch.toAutomata (owl.engine host.launch) batch).run compiled.2
    c.output.dryRun ∨
        ((writeOutput host output (automataText reported.1.automata)).run reported.2).1 →
      (((nba host c model property output).run n).run s).1.1 =
        if batch.isFailed then failure else nbaStatus reported.1 := by
  intro compiled batch reported written
  have opened : ((nba host c model property output).run n).run s =
      let run := ((Batch.translateToAutomata (Batch.fileCompilers host.files) c.batch
        (fun labelled => liftM (owl.engine host.launch labelled)) ⟨model, property⟩).run n).run found
      ((do
        if run.1.1.batch.isFailed then return failure
        let written ←
          if c.output.dryRun then pure true
          else liftM (writeOutput host output (automataText run.1.1.automata))
        if !written then return failure
        liftM (host.print (automataSummary run.1.1))
        return nbaStatus run.1.1 : StateT NodeId (StateM σ) UInt32).run run.1.2).run run.2 := by
    rw [nba, Batch.run_bind_run, Batch.run_liftM_run, sought]
    rfl
  rw [opened, Batch.translateToAutomata_liftM_run]
  dsimp only
  rw [show (Batch.toAutomata (owl.engine host.launch)
    (Batch.outcomeOfCompiled c.batch compiled.1.1)).run compiled.2 = reported from rfl,
    show reported.1.batch = batch from rfl]
  cases batch.isFailed with
  | true => rfl
  | false =>
    rcases written with dry | written
    · rw [dry]
      rfl
    · cases c.output.dryRun with
      | true => rfl
      | false =>
        rw [if_neg Bool.false_ne_true, if_neg Bool.false_ne_true, if_neg Bool.false_ne_true,
          Batch.run_bind_run, Batch.run_liftM_run, written]
        rfl

/-- Complete reports are those of batches in which every selected definition has an automaton. -/
theorem status_eq_success_iff (c : TranslatorConfig) (engine : Engine (StateM σ))
    (compiled : Except SourceError PropertyModel) (s : σ) :
    let batch := Batch.outcomeOfCompiled c.batch compiled
    let report := ((Batch.toAutomata engine batch).run s).1
    (if batch.isFailed then failure else nbaStatus report) = success ↔
      ∃ p, compiled = .ok p ∧ report.automata.map (·.name) =
        (p.selected c.batch.includeLtlDefinitions).map (·.name) := by
  intro batch report
  cases compiled with
  | error cause =>
    constructor
    · intro failed
      cases failed
    · rintro ⟨p, ⟨⟩, -⟩
  | ok p =>
    obtain ⟨-, questions⟩ := Batch.asked_askAll engine batch.formulas s
    have complete := Batch.map_name_automata_iff c.batch p questions (Answered.sorted _)
    show (if batch.failures.isEmpty && report.engineFailures.isEmpty then success else failure) =
      success ↔ _
    have status (b : Bool) : (if b then success else failure) = success ↔ b = true := by
      cases b <;> decide
    rw [status, Bool.and_eq_true, List.isEmpty_iff, List.isEmpty_iff]
    constructor
    · intro nothing
      exact ⟨p, rfl, complete.2 nothing⟩
    · rintro ⟨p', ⟨⟩, all⟩
      exact complete.1 all

end CommandLine

namespace Batch

/-- **No definition is lost on the way to automata.**  Let an engine remember whatever it likes.  It
is asked once for each formula of the batch, in order, and not for anything else; its automata and
its errors stand in the report as it gave them, each under the name of the definition that was asked
about and in the same order, and the batch is what it is without an engine.  A batch with a property
model has as many automata, failures of the engine and failures of its own as selected definitions;
for one without a property model the engine is not asked.  So `nba` succeeds, if there is an engine
and the output can be written, exactly if there is a property model and every selected definition
has an automaton. -/
theorem translateToAutomata_conserves :
    (∀ (σ : Type) (compilers : Compilers (StateM σ)) (config : BatchConfig)
        (engine : Engine (StateM σ)) (source : BatchSource) (s : σ),
      let compiled := ((compile compilers source).run s).1
      let batch := ((translate compilers config source).run s).1
      let before := ((translate compilers config source).run s).2
      let report := ((translateToAutomata compilers config engine source).run s).1
      let after := ((translateToAutomata compilers config engine source).run s).2
      report.batch = batch ∧
        (∃ answers, Asked engine before answers after ∧ answers.map Prod.fst = batch.formulas ∧
          Answered.Sorted answers report.automata report.engineFailures) ∧
        (∀ log : σ → List LabelledFormula,
          (∀ f t, log ((engine f).run t).2 = log t ++ [f]) →
            log after = log before ++ batch.formulas.map (·.formula)) ∧
        (∀ p, compiled = .ok p → batch.isFailed = false ∧
          report.automata.length + report.engineFailures.length + batch.failures.length =
            (p.selected config.includeLtlDefinitions).length) ∧
        ∀ cause, compiled = .error cause → batch.isFailed ∧ batch.formulas = [] ∧ after = before ∧
          report.automata = [] ∧ report.engineFailures = []) ∧
      ∀ (σ : Type) (host : Host (StateM σ)) (c : TranslatorConfig) (model property : String)
          (output : Option String) (n : NodeId) (s found : σ) (owl : Owl),
        (Owl.ofConfig host.search c).run s = (.ok owl, found) →
        let source : BatchSource := ⟨model, property⟩
        let compiled := ((compile (fileCompilers host.files) source).run n).run found
        let run := ((translateToAutomata (fileCompilers host.files) c.batch
          (fun labelled => liftM (owl.engine host.launch labelled)) source).run n).run found
        c.output.dryRun ∨ ((CommandLine.writeOutput host output
          (CommandLine.automataText run.1.1.automata)).run run.2).1 →
        ((((CommandLine.nba host c model property output).run n).run s).1.1 = 0 ↔
          ∃ p, compiled.1.1 = .ok p ∧ run.1.1.automata.map (·.name) =
            (p.selected c.batch.includeLtlDefinitions).map (·.name)) := by
  constructor
  · intro σ compilers config engine source s compiled batch before report after
    have told : (translate compilers config source).run s =
        (outcomeOfCompiled config compiled, ((compile compilers source).run s).2) := by
      rw [translate_eq_map]
      rfl
    obtain ⟨asked, questions⟩ := asked_askAll engine batch.formulas before
    have sorted := Answered.sorted ((askAll engine batch.formulas).run before).1
    refine ⟨rfl, ⟨_, asked, questions, sorted⟩, ?_, ?_, ?_⟩
    · intro log keeps
      have noted := asked.log_eq keeps
      rw [questions] at noted
      exact noted
    · intro p loaded
      have outcome : batch = ((translateModel config p).run ∅).1 := by
        show ((translate compilers config source).run s).1 = _
        rw [told, loaded]
        rfl
      have conserved := length_automata_add config p (questions.trans (congrArg _ outcome)) sorted
      rw [← outcome] at conserved
      exact ⟨congrArg BatchOutcome.isFailed outcome, conserved⟩
    · intro cause refused
      have outcome : batch = .failed cause := by
        show ((translate compilers config source).run s).1 = _
        rw [told, refused]
        rfl
      have unasked : (askAll engine batch.formulas).run before = ([], before) := by
        rw [outcome]
        rfl
      have reported : (toAutomata engine batch).run before = (⟨batch, [], []⟩, before) := by
        rw [toAutomata_run, unasked]
        rfl
      exact ⟨congrArg BatchOutcome.isFailed outcome, congrArg BatchOutcome.formulas outcome,
        congrArg Prod.snd reported, congrArg (·.1.automata) reported,
        congrArg (·.1.engineFailures) reported⟩
  · intro σ host c model property output n s found owl sought source compiled run written
    have reported : run = _ := translateToAutomata_liftM_run (fileCompilers host.files) c.batch
      (owl.engine host.launch) source n found
    rw [reported] at written ⊢
    rw [CommandLine.nba_status sought written]
    exact CommandLine.status_eq_success_iff c (owl.engine host.launch) compiled.1.1 compiled.2

/-- An engine that keeps its questions and refuses every other one is asked about two definitions of
one name, and a third is nested too deeply; another engine knows only one automaton and is asked
about a definition of a file. -/
theorem translateToAutomata_conserves_alternating :
    let engine : Engine (StateM (List LabelledFormula)) := fun f => do
      let asked ← get
      set (asked ++ [f])
      return if asked.length % 2 = 0 then .ok ⟨f.text, f.propositions, "HOA: v1", 0⟩
        else .error (.executionFailed "refused")
    let x : Expression := .term 0 (some "x") none
    let p : PropertyModel :=
      ⟨[⟨"twice", some x⟩, ⟨"deep", some (.unary "!" (some x))⟩, ⟨"twice", none⟩], [], []⟩
    let compilers : Compilers (StateM (List LabelledFormula)) :=
      { compileModel := fun _ => return .ok ⟨[], []⟩
        compileProperties := fun _ _ => return .ok p }
    let config : BatchConfig := { BatchConfig.default with maxExpressionDepth := 1 }
    let run := (translateToAutomata compilers config engine ⟨"model.json", "property.json"⟩).run []
    let named : PropertyModel := ⟨[⟨"nothing", none⟩], [], []⟩
    let host : Host (StateM Unit) :=
      { files :=
          { readText := fun path => pure (.ok
              (if path = "model.json" then (ActorModel.toJson ⟨[], []⟩).compact
                else named.toJson.compact))
            pathExists := fun _ => return true
            writeText := fun _ _ => return .ok () }
        print := fun _ => return ()
        clock := return 0
        search := fun _ => return some "owl"
        launch := fun _ _ _ => return .ended true "HOA: v1".toUTF8.toList [] 0 }
    run.1.automata.length + run.1.engineFailures.length + run.1.batch.failures.length = 3 ∧
      run.2 = run.1.batch.formulas.map (·.formula) ∧
      (((CommandLine.nba host .default "model.json" "property.json" none).run 0).run ()).1.1 = 0 := by
  intro engine x p compilers config run named host
  obtain ⟨conserves, succeeds⟩ := translateToAutomata_conserves
  obtain ⟨-, -, log, loaded, -⟩ :=
    conserves _ compilers config engine ⟨"model.json", "property.json"⟩ []
  refine ⟨(loaded p rfl).2, log id fun _ _ => rfl, ?_⟩
  have holds : modelOfText? (ActorModel.toJson ⟨[], []⟩).compact = some ⟨[], []⟩ := by
    rw [← Json.write_compact, modelOfText?_write]
  have reads : (propertiesOfText named.toJson.compact).run.run 0 = (some named, 0) := by
    rw [← Json.write_compact, propertiesOfText_write (by decide)]
    rfl
  have modelRead : (readModel host.files "model.json").run () = (.ok ⟨[], []⟩, ()) := by
    have file : (host.files.readText "model.json").run () =
        (.ok (ActorModel.toJson ⟨[], []⟩).compact, ()) := rfl
    simp only [readModel_eq, file, holds]
  have loaded : ((readProperties host.files ⟨[], []⟩ "property.json").run 0).run () =
      ((.ok named, 0), ()) := by
    have file : (host.files.readText "property.json").run () = (.ok named.toJson.compact, ()) := rfl
    have accepted : named.check ⟨[], []⟩ = .ok named := rfl
    simp only [readProperties_eq, file, reads, accepted]
  have compiled :
      ((compile (fileCompilers host.files) ⟨"model.json", "property.json"⟩).run 0).run () =
        ((.ok named, 0), ()) := by
    simp only [compile_files_eq, modelRead, loaded]
  refine (succeeds Unit host .default "model.json" "property.json" none 0 () () ⟨"owl", .default⟩ rfl
    (.inr rfl)).2 ⟨named, congrArg (·.1.1) compiled, ?_⟩
  rw [translateToAutomata_liftM_run, compiled]
  decide +kernel

end Batch
end ActorLtl
