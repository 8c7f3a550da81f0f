/-
# Configuration

Three groups of settings: the translation engine, the batches, and the output.  Any part that
a configuration file leaves out has its default; as many batches run at once by default as the
machine has cores.  `complaint?` is what makes a configuration
unusable, the first of four checks that fails: the engine's path leads somewhere, and three
numbers are not zero.
-/

import ActorLtl.Definition
import ActorLtl.Files

namespace ActorLtl

/-- The constructions of a Büchi automaton from a formula that the engine offers. -/
inductive Construction where
  | eks20
  | smallestAutomaton
  deriving DecidableEq, Repr, Inhabited

namespace Construction

/-- The name as the engine expects it. -/
def name : Construction → String
  | eks20 => "EKS20"
  | smallestAutomaton => "SMALLEST_AUTOMATON"

/-- The construction that a name means, in any mixture of ASCII cases. -/
def ofName? (text : String) : Except ConfigError Construction :=
  if text.toUpper = eks20.name then .ok eks20
  else if text.toUpper = smallestAutomaton.name then .ok smallestAutomaton
  else .error (.invalidValue "engine.translation" text)

/-- **A text means the construction whose name it is in upper case,** and nothing else. -/
theorem ofName?_eq_ok_iff {text : String} {c : Construction} :
    ofName? text = .ok c ↔ text.toUpper = c.name := by
  have distinct : eks20.name ≠ smallestAutomaton.name := by decide
  unfold ofName?
  split
  · rename_i first
    rw [first, Except.ok.injEq]
    cases c <;> simp [distinct]
  · rename_i first
    split
    · rename_i second
      rw [second, Except.ok.injEq]
      cases c <;> simp [distinct.symm]
    · rename_i second
      cases c <;> simp [first, second]

end Construction

/-- How the translation engine is run. -/
structure EngineConfig where
  /-- The path of the engine's program. -/
  owlPath : Option String
  construction : Construction
  /-- Simplify formulas before they are translated. -/
  simplifyFormula : Bool
  /-- Simplify the acceptance condition of automata. -/
  simplifyAcceptance : Bool
  /-- Use direct constructions for simple formulas. -/
  portfolio : Bool
  /-- Make automata complete. -/
  complete : Bool
  /-- Mark states and not transitions as accepting. -/
  stateAcceptance : Bool
  /-- How long one formula may take, in milliseconds. -/
  timeout : UInt64
  deriving DecidableEq, Repr

/-- How batches are translated. -/
structure BatchConfig where
  /-- How deeply a definition's expression may be nested. -/
  maxExpressionDepth : UInt64
  /-- Translate the LTL definitions as well. -/
  includeLtlDefinitions : Bool
  /-- How many batches may run at once. -/
  maxParallelBatches : UInt64
  deriving DecidableEq, Repr

/-- What is written. -/
structure OutputConfig where
  /-- Translate and write nothing. -/
  dryRun : Bool
  /-- Set JSON over several lines. -/
  prettyPrint : Bool
  deriving DecidableEq, Repr

/-- A configuration. -/
structure TranslatorConfig where
  engine : EngineConfig
  batch : BatchConfig
  output : OutputConfig
  deriving DecidableEq, Repr

namespace EngineConfig

def default : EngineConfig where
  owlPath := none
  construction := .eks20
  simplifyFormula := true
  simplifyAcceptance := true
  portfolio := true
  complete := false
  stateAcceptance := false
  timeout := 30000

instance : Inhabited EngineConfig := ⟨default⟩

end EngineConfig

namespace BatchConfig

/-- The default on a machine with so many cores. -/
def default (cores : UInt64 := 1) : BatchConfig where
  maxExpressionDepth := UInt64.ofNat defaultDepthLimit
  includeLtlDefinitions := false
  maxParallelBatches := cores

instance : Inhabited BatchConfig := ⟨default⟩

/-- How many batches may run at once: as many as configured, but at least one. -/
def permits (c : BatchConfig) : Nat := max 1 c.maxParallelBatches.toNat

/-- The most permits that there can be. -/
def maxPermits : Nat := UInt64.size / 8 - 1

/-- Whether there can be as many permits as configured. -/
def hasPermits (c : BatchConfig) : Bool := c.permits ≤ maxPermits

end BatchConfig

namespace OutputConfig

def default : OutputConfig where
  dryRun := false
  prettyPrint := true

instance : Inhabited OutputConfig := ⟨default⟩

end OutputConfig

namespace TranslatorConfig

/-- The default on a machine with so many cores. -/
def default (cores : UInt64 := 1) : TranslatorConfig where
  engine := .default
  batch := .default cores
  output := .default

instance : Inhabited TranslatorConfig := ⟨default⟩

/-- The first thing that makes the configuration unusable; `exists?` says whether a path
leads anywhere. -/
def complaint? (exists? : String → Bool) (c : TranslatorConfig) : Option ConfigError :=
  match c.engine.owlPath.filter fun path => !exists? path with
  | some path => some (.invalidValue "engine.owl_path" path)
  | none =>
      if c.engine.timeout = 0 then some (.invalidValue "engine.timeout_ms" "0")
      else if c.batch.maxExpressionDepth = 0 then
        some (.invalidValue "batch.max_expression_depth" "0")
      else if c.batch.maxParallelBatches = 0 then
        some (.invalidValue "batch.max_parallel_batches" "0")
      else none

/-- The numbers that must not be zero, with their keys. -/
def counts (c : TranslatorConfig) : List (String × UInt64) :=
  [("engine.timeout_ms", c.engine.timeout),
   ("batch.max_expression_depth", c.batch.maxExpressionDepth),
   ("batch.max_parallel_batches", c.batch.maxParallelBatches)]

/-- Everything that makes the configuration unusable, in the order in which it is looked for. -/
def faults (exists? : String → Bool) (c : TranslatorConfig) : List ConfigError :=
  (c.engine.owlPath.toList.filter fun path => !exists? path).map (.invalidValue "engine.owl_path") ++
    (c.counts.filter fun count => count.2 = 0).map fun count => .invalidValue count.1 "0"

/-- Checks a configuration against the files around it. -/
def validate {m : Type → Type} [Monad m] (files : Files m) (c : TranslatorConfig) :
    m (Except ConfigError TranslatorConfig) := do
  let found ← match c.engine.owlPath with
    | some path => files.pathExists path
    | none => pure true
  match c.complaint? fun _ => found with
  | some complaint => return .error complaint
  | none => return .ok c

/-- The path of the engine's program: the configured one, or the one that `search` finds. -/
def owlPath? {m : Type → Type} [Monad m] (search : String → m (Option String))
    (c : TranslatorConfig) : m (Except ConfigError String) := do
  match c.engine.owlPath with
  | some path => return .ok path
  | none =>
      match ← search "owl" with
      | some path => return .ok path
      | none => return .error (.missingKey "engine.owl_path")

end TranslatorConfig
end ActorLtl
