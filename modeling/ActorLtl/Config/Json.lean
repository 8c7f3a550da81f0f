/-
# Configuration files

A configuration file is an object with the groups `engine`, `batch` and `output`.  A saved
file holds every setting, one on a line.  Loading reads a file and checks what it says, so a
loaded configuration is always usable.
-/

import ActorLtl.Config
import ActorLtl.Json.Decoder
import ActorLtl.Json.Reader
import ActorLtl.Json.Writer

namespace ActorLtl

/-- A 64-bit word as a number. -/
def wordToJson (w : UInt64) : Json := .natural w.toNat

namespace Construction

def toJson (c : Construction) : Json := .text c.name

def decoder : Decoder Construction :=
  .oneOf [(eks20.name, eks20), (smallestAutomaton.name, smallestAutomaton)]

end Construction

namespace EngineConfig

def toJson (c : EngineConfig) : Json :=
  .object [
    ("owl_path", match c.owlPath with | some path => .text path | none => .null),
    ("translation", c.construction.toJson),
    ("simplify_formula", .bool c.simplifyFormula),
    ("simplify_acceptance", .bool c.simplifyAcceptance),
    ("translation_portfolio", .bool c.portfolio),
    ("complete", .bool c.complete),
    ("state_acceptance", .bool c.stateAcceptance),
    ("timeout_ms", wordToJson c.timeout)]

def decoder : Decoder EngineConfig :=
  .record ["owl_path", "translation", "simplify_formula", "simplify_acceptance",
      "translation_portfolio", "complete", "state_acceptance", "timeout_ms"] fun fields => do
    return {
      owlPath := ← fields.withDefault "owl_path" (.optional .text) default.owlPath
      construction :=
        ← fields.withDefault "translation" Construction.decoder default.construction
      simplifyFormula := ← fields.withDefault "simplify_formula" .bool default.simplifyFormula
      simplifyAcceptance :=
        ← fields.withDefault "simplify_acceptance" .bool default.simplifyAcceptance
      portfolio := ← fields.withDefault "translation_portfolio" .bool default.portfolio
      complete := ← fields.withDefault "complete" .bool default.complete
      stateAcceptance := ← fields.withDefault "state_acceptance" .bool default.stateAcceptance
      timeout := ← fields.withDefault "timeout_ms" .word default.timeout }

end EngineConfig

namespace BatchConfig

def toJson (c : BatchConfig) : Json :=
  .object [
    ("max_expression_depth", wordToJson c.maxExpressionDepth),
    ("include_ltl_definitions", .bool c.includeLtlDefinitions),
    ("max_parallel_batches", wordToJson c.maxParallelBatches)]

/-- Takes in the group on a machine with so many cores. -/
def decoder (cores : UInt64 := 1) : Decoder BatchConfig :=
  .record ["max_expression_depth", "include_ltl_definitions", "max_parallel_batches"]
    fun fields => do
      return {
        maxExpressionDepth :=
          ← fields.withDefault "max_expression_depth" .word (default cores).maxExpressionDepth
        includeLtlDefinitions :=
          ← fields.withDefault "include_ltl_definitions" .bool (default cores).includeLtlDefinitions
        maxParallelBatches :=
          ← fields.withDefault "max_parallel_batches" .word (default cores).maxParallelBatches }

end BatchConfig

namespace OutputConfig

def toJson (c : OutputConfig) : Json :=
  .object [("dry_run", .bool c.dryRun), ("pretty_print", .bool c.prettyPrint)]

def decoder : Decoder OutputConfig :=
  .record ["dry_run", "pretty_print"] fun fields => do
    return {
      dryRun := ← fields.withDefault "dry_run" .bool default.dryRun
      prettyPrint := ← fields.withDefault "pretty_print" .bool default.prettyPrint }

end OutputConfig

namespace TranslatorConfig

def toJson (c : TranslatorConfig) : Json :=
  .object [
    ("engine", c.engine.toJson), ("batch", c.batch.toJson), ("output", c.output.toJson)]

/-- Takes in a configuration on a machine with so many cores. -/
def decoder (cores : UInt64 := 1) : Decoder TranslatorConfig :=
  .record ["engine", "batch", "output"] fun fields => do
    return {
      engine := ← fields.withDefault "engine" EngineConfig.decoder .default
      batch := ← fields.withDefault "batch" (BatchConfig.decoder cores) (.default cores)
      output := ← fields.withDefault "output" OutputConfig.decoder .default }

/-- The configuration that a text holds. -/
def ofText? (text : String) (cores : UInt64 := 1) : Option TranslatorConfig :=
  (Json.parse? text).bind (decoder cores fileLevels)

variable {m : Type → Type} [Monad m]

/-- Reads a configuration from a file, on a machine with so many cores, and checks it. -/
def load (files : Files m) (path : String) (cores : UInt64 := 1) :
    m (Except ConfigError TranslatorConfig) := do
  match ← files.readText path with
  | .error _ => return .error (.fileNotFound path)
  | .ok text =>
      match ofText? text cores with
      | none => return .error (.invalidFormat (files.refusal "configuration" text))
      | some c => c.validate files

/-- Writes a configuration to a file. -/
def save (files : Files m) (path : String) (c : TranslatorConfig) :
    m (Except ConfigError Unit) := do
  match ← files.writeText path c.toJson.pretty with
  | .error cause => return .error (.invalidFormat cause.message)
  | .ok () => return .ok ()

end TranslatorConfig
end ActorLtl
