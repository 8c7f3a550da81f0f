/-
# Batches

A batch is a model file with a property file.  Two compilers, which may be anything, make a
property model of them, and its selected definitions become formulas one after the other, all
numbered by one registry.  A definition that has no formula is reported and left out; the
others do not notice.  If there is no property model, the outcome says why and is empty
otherwise.

Times are those of whoever holds a clock: an outcome leaves here with time zero, and
`BatchOutcome.after` fills it in.
-/

import ActorLtl.Config
import ActorLtl.Model

namespace ActorLtl

/-- Where a batch comes from. -/
structure BatchSource where
  model : String
  property : String
  deriving DecidableEq, Repr, Inhabited

/-- What makes models and property models of files. -/
structure Compilers (m : Type → Type) where
  compileModel : String → m (Except SourceError ActorModel)
  /-- Compiles a property file, checked against the model. -/
  compileProperties : ActorModel → String → m (Except SourceError PropertyModel)

/-- A definition with its formula. -/
structure TranslatedDefinition where
  name : String
  formula : LabelledFormula
  deriving Repr, BEq, Inhabited

/-- A definition that was left out, and why. -/
structure DefinitionFailure where
  name : String
  message : String
  deriving DecidableEq, Repr, Inhabited

/-- The numbers of a batch. -/
structure BatchStats where
  /-- How many definitions were selected. -/
  definitionCount : Nat
  convertedCount : Nat
  failedCount : Nat
  /-- How many propositions the batch's registry knows. -/
  propositionCount : Nat
  totalTimeMs : Nat
  deriving DecidableEq, Repr, Inhabited

/-- All that a batch produces. -/
structure BatchOutcome where
  /-- The definitions with formulas, in the order of the definitions. -/
  formulas : List TranslatedDefinition
  /-- The others, in the same order. -/
  failures : List DefinitionFailure
  stats : BatchStats
  /-- Why there was no property model. -/
  error : Option String
  deriving Repr, BEq, Inhabited

namespace BatchOutcome

/-- The outcome of a batch without a property model. -/
def failed (cause : SourceError) : BatchOutcome where
  formulas := []
  failures := []
  stats := ⟨0, 0, 0, 0, 0⟩
  error := some cause.message

/-- Whether there was no property model. -/
def isFailed (outcome : BatchOutcome) : Bool := outcome.error.isSome

/-- The outcome, with the time the batch took. -/
def after (outcome : BatchOutcome) (milliseconds : Nat) : BatchOutcome :=
  { outcome with stats := { outcome.stats with totalTimeMs := milliseconds } }

end BatchOutcome

/-- What became of one definition. -/
abbrev Assembled := Definition × Except DefinitionError LabelledFormula

namespace Assembled

/-- The definition with its formula, if it has one. -/
def translated? : Assembled → Option TranslatedDefinition
  | (d, .ok formula) => some ⟨d.name, formula⟩
  | (_, .error _) => none

/-- The definition with the reason, if it has no formula. -/
def failure? : Assembled → Option DefinitionFailure
  | (_, .ok _) => none
  | (d, .error cause) => some ⟨d.name, cause.message⟩

/-- **Every definition is on one side.** -/
theorem failure?_isSome_iff (a : Assembled) : a.failure?.isSome ↔ a.translated? = none := by
  rcases a with ⟨d, _ | _⟩ <;> simp [failure?, translated?]

end Assembled

namespace Batch

/-- Assembles definitions one after the other. -/
def assembleAll (limit : Nat) : List Definition → StateM Registry (List Assembled)
  | [] => return []
  | d :: ds => do
      let result ← d.assemble limit
      return (d, result) :: (← assembleAll limit ds)

/-- The outcome of a batch with a property model: its selected definitions, assembled after
the registry has been reset. -/
def translateModel (config : BatchConfig) (p : PropertyModel) :
    StateM Registry BatchOutcome := do
  modify Registry.reset
  let assembled ←
    assembleAll config.maxExpressionDepth.toNat (p.selected config.includeLtlDefinitions)
  let formulas := assembled.filterMap Assembled.translated?
  let failures := assembled.filterMap Assembled.failure?
  return {
    formulas
    failures
    stats := {
      definitionCount := assembled.length
      convertedCount := formulas.length
      failedCount := failures.length
      propositionCount := (← get).size
      totalTimeMs := 0 }
    error := none }

section Compiled

variable {m : Type → Type} [Monad m]

/-- The property model of a batch. -/
def compile (compilers : Compilers m) (source : BatchSource) :
    m (Except SourceError PropertyModel) := do
  match ← compilers.compileModel source.model with
  | .error cause => return .error cause
  | .ok model => compilers.compileProperties model source.property

/-- Translates a batch with the registry that is handed over.  Without a property model the
registry is not touched. -/
def translateWith (compilers : Compilers m) (config : BatchConfig) (source : BatchSource)
    (registry : Registry) : m (BatchOutcome × Registry) := do
  match ← compile compilers source with
  | .ok p => return (translateModel config p).run registry
  | .error cause => return (.failed cause, registry)

/-- Translates a batch with a registry of its own. -/
def translate (compilers : Compilers m) (config : BatchConfig) (source : BatchSource) :
    m BatchOutcome := do
  return (← translateWith compilers config source ∅).1

/-- The outcome of a batch, told from what its compilers give. -/
def outcomeOfCompiled (config : BatchConfig) : Except SourceError PropertyModel → BatchOutcome
  | .ok p => ((translateModel config p).run ∅).1
  | .error cause => .failed cause

/-- **A batch is compiled, and the rest is told from that.** -/
theorem translate_eq_map [LawfulMonad m] (compilers : Compilers m) (config : BatchConfig)
    (source : BatchSource) :
    translate compilers config source = outcomeOfCompiled config <$> compile compilers source := by
  rw [translate, translateWith, bind_assoc, map_eq_pure_bind]
  refine bind_congr fun compiled => ?_
  cases compiled with
  | ok p => exact pure_bind ..
  | error cause => exact pure_bind ..

/-- What `run` makes of several sources, in order.  With more permits than there can be nothing
is run at all. -/
def runAll {α : Type} (config : BatchConfig) (run : α → m BatchOutcome) (sources : List α) :
    m (Option (List BatchOutcome)) :=
  if config.hasPermits then do return some (← sources.mapM run) else return none

/-- Translates several batches, each with a registry of its own, in order. -/
def translateAll (compilers : Compilers m) (config : BatchConfig) (sources : List BatchSource) :
    m (Option (List BatchOutcome)) :=
  runAll config (translate compilers config) sources

end Compiled
end Batch
end ActorLtl
