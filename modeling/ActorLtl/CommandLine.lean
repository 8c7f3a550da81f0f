/-
# The command line

`translate` writes one record for each property file: the texts of its formulas, the
definitions that were left out, and the numbers of the batch.  `nba` writes the automata of
one property file.  `info` says what the program understands and how it is configured.

The exit status is 0 if everything that was asked for is there, 2 for a command line that is
not well formed, 101 if more batches are to run at once than ever can, and 1 otherwise: also if
a single definition has no formula or no automaton, although the others are written then.

The commands run in any monad whose `Host` gives them files, a standard output, a clock and
other programs.
-/

import ActorLtl.Batch.Json
import ActorLtl.Batch.Source
import ActorLtl.CommandLine.Arguments
import ActorLtl.Config.Json
import ActorLtl.Engine.Owl

namespace ActorLtl

/-- What the commands need of the machine they run on. -/
structure Host (m : Type → Type) where
  files : Files m
  /-- How many batches may run at once unless something else is configured. -/
  cores : UInt64 := 1
  /-- Writes to the standard output. -/
  print : String → m Unit
  /-- The time in milliseconds, since some moment. -/
  clock : m Nat
  /-- The path of a program that is installed under a name. -/
  search : String → m (Option String)
  launch : Launcher m

namespace CommandLine

/-- The program did what it was asked for. -/
def success : UInt32 := 0

/-- Something that was asked for is not there. -/
def failure : UInt32 := 1

/-- The command line is not well formed. -/
def misuse : UInt32 := 2

/-- The program cannot do what it is configured to do. -/
def abort : UInt32 := 101

/-! ## What `translate` writes -/

/-- One formula of a record. -/
def formulaRecord (d : TranslatedDefinition) : Json :=
  .object [
    ("name", .text d.name),
    ("formula", .text d.formula.text),
    ("propositions", .array (d.formula.propositions.map .text))]

/-- The record of one property file. -/
def batchRecord (property : String) (o : BatchOutcome) : Json :=
  .object ([
    ("property", .text property),
    ("formulas", .array (o.formulas.map formulaRecord)),
    ("failures", .array (o.failures.map DefinitionFailure.toJson)),
    ("stats", o.stats.toJson)] ++
    (o.error.map fun message => ("error", Json.text message)).toList)

/-- The records of all property files, in order. -/
def records (properties : List String) (outcomes : List BatchOutcome) : Json :=
  .array ((properties.zip outcomes).map fun (property, o) => batchRecord property o)

/-- The text of a value, over several lines if that is wanted. -/
def jsonText (c : OutputConfig) (v : Json) : String := if c.prettyPrint then v.pretty else v.compact

/-- Whether a batch is all there: it has a property model, and every definition a formula. -/
def isComplete (o : BatchOutcome) : Bool := !o.isFailed && o.stats.failedCount == 0

/-- The exit status of `translate`, unless writing fails. -/
def translateStatus (outcomes : List BatchOutcome) : UInt32 :=
  if outcomes.all isComplete then success else failure

/-! ## What `nba` writes -/

/-- The automata of a report, each under a line that names it. -/
def automataText (automata : List NamedAutomaton) : String :=
  trimEnd (String.join (automata.map fun named =>
    "// Automaton for " ++ named.name ++ ": " ++ named.automaton.formula ++ "\n" ++
      trimEnd named.automaton.hoa ++ "\n"))

/-- The numbers of a report. -/
def automataSummary (r : AutomataReport) : String :=
  "Automata: " ++ toString r.automata.length ++ "\n" ++
  "Skipped definitions: " ++ toString r.batch.failures.length ++ "\n" ++
  "Engine failures: " ++ toString r.engineFailures.length ++ "\n"

/-- The exit status of `nba` for a batch with a property model, unless writing fails. -/
def nbaStatus (r : AutomataReport) : UInt32 :=
  if r.batch.failures.isEmpty && r.engineFailures.isEmpty then success else failure

/-! ## What `info` writes -/

/-- What the program understands and how it is configured; `owl` is the path of Owl. -/
def infoText (c : TranslatorConfig) (owl : Option String) : String :=
  "\n".intercalate [
    "Rebeca LTL Translator Information",
    "Version: 0.1.0",
    "Description: Translates Rebeca property definitions into labelled LTL formulas",
    "",
    "Binary operators:",
    "  " ++ " ".intercalate BinaryOperator.spellings,
    "Unary operators:",
    "  " ++ " ".intercalate UnaryOperator.spellings,
    "Temporal calls:",
    "  " ++ " ".intercalate (TemporalCall.table.map fun call => call.1 ++ "(p)"),
    "",
    "Configuration:",
    "  Owl path: " ++ owl.getD "not found",
    "  Translation: " ++ c.engine.construction.name,
    "  Engine timeout: " ++ toString c.engine.timeout.toNat ++ "ms",
    "  Max expression depth: " ++ toString c.batch.maxExpressionDepth.toNat,
    "  Include LTL definitions: " ++ toString c.batch.includeLtlDefinitions,
    "  Parallel batches: " ++ toString c.batch.maxParallelBatches.toNat,
    "",
    "Usage:",
    "  rebeca-ltl translate -m <model> -p <property>... [-o <file>]  - Translate to LTL",
    "  rebeca-ltl nba -m <model> -p <property> [options]             - Translate to NBA",
    "  rebeca-ltl info                                                - Show translator information",
    ""]

/-- How the program is used. -/
def helpText : String :=
  "\n".intercalate [
    "Translate Rebeca property definitions into LTL formulas and automata",
    "",
    "Usage: rebeca-ltl [-c <file>] [-v] translate -m <model> -p <property>... [-o <file>]",
    "       rebeca-ltl [-c <file>] [-v] nba -m <model> -p <property> [-o <file>] [options]",
    "       rebeca-ltl [-c <file>] [-v] info",
    ""]

/-- The name and version of the program. -/
def versionText : String := "rebeca-ltl 0.1.0\n"

/-! ## Running the commands -/

section Run

variable {m : Type → Type} [Monad m] (host : Host m)

/-- Writes a text to a file as it is, or to the standard output as a line.  The answer says
whether it could be written. -/
def writeOutput (output : Option String) (text : String) : m Bool := do
  match output with
  | some path => return (← host.files.writeText path text).isOk
  | none =>
      host.print (text ++ "\n")
      return true

/-- Translates a batch, and takes the time. -/
def translateTimed (c : TranslatorConfig) (source : BatchSource) : StateT NodeId m BatchOutcome := do
  let start ← liftM host.clock
  let outcome ← Batch.translate (Batch.fileCompilers host.files) c.batch source
  return outcome.after ((← liftM host.clock) - start)

/-- Writes the records of the outcomes, unless nothing is to be written: the exit status. -/
def report (c : OutputConfig) (properties : List String) (output : Option String)
    (outcomes : List BatchOutcome) : m UInt32 := do
  let written ←
    if c.dryRun then pure true
    else writeOutput host output (jsonText c (records properties outcomes))
  return if written then translateStatus outcomes else failure

/-- The command `translate`. -/
def translate (c : TranslatorConfig) (model : String) (properties : List String)
    (output : Option String) : StateT NodeId m UInt32 := do
  match ← Batch.runAll c.batch (fun property => translateTimed host c ⟨model, property⟩)
      properties with
  | none => return abort
  | some outcomes => liftM (report host c.output properties output outcomes)

/-- The command `nba`. -/
def nba (c : TranslatorConfig) (model property : String) (output : Option String) :
    StateT NodeId m UInt32 := do
  match ← liftM (Owl.ofConfig host.search c) with
  | .error _ => return failure
  | .ok owl =>
      let report ← Batch.translateToAutomata (Batch.fileCompilers host.files) c.batch
        (fun labelled => liftM (owl.engine host.launch labelled)) ⟨model, property⟩
      if report.batch.isFailed then return failure
      let written ←
        if c.output.dryRun then pure true
        else liftM (writeOutput host output (automataText report.automata))
      if !written then return failure
      liftM (host.print (automataSummary report))
      return nbaStatus report

/-- The command `info`. -/
def info (c : TranslatorConfig) : m UInt32 := do
  host.print (infoText c (← c.owlPath? host.search).toOption)
  return success

/-- The configuration that a command runs with. -/
def loadConfig (path : Option String) : m (Except ConfigError TranslatorConfig) :=
  match path with
  | some path => TranslatorConfig.load host.files path host.cores
  | none => return .ok (.default host.cores)

/-- Runs a command. -/
def runCommand (c : TranslatorConfig) : Command → StateT NodeId m UInt32
  | .translate model properties output => translate host c model properties output
  | .nba model property output options => nba host (options.apply c) model property output
  | .info => liftM (info host c)

/-- Runs the program with its arguments: its exit status. -/
def run (arguments : List String) : StateT NodeId m UInt32 := do
  match parse arguments with
  | .error .usage => return misuse
  | .error .help => liftM (host.print helpText); return success
  | .error .version => liftM (host.print versionText); return success
  | .ok invocation =>
      match ← liftM (loadConfig host invocation.config) with
      | .error _ => return failure
      | .ok c => runCommand host c invocation.command

end Run
end CommandLine
end ActorLtl
