/-
# Owl

Owl is a program that is started once per formula, with the formula's text among its
arguments, and writes the automaton to its standard output.  What its end means:

| how it ended | answer |
| --- | --- |
| there is no such program | engine not found |
| it could not be started | execution failed, with the system's reason |
| it took too long | timeout |
| it reported failure, or was killed | execution failed, with its error output |
| it wrote nothing that is an automaton | empty output |
| otherwise | the automaton |
-/

import ActorLtl.Engine
import ActorLtl.Formula.Text
import ActorLtl.Text.Blank
import ActorLtl.Text.Utf8

namespace ActorLtl

/-- How a program ended. -/
inductive ProcessResult where
  | notFound
  | notStarted (reason : String)
  | timedOut
  /-- The program ran to its end, and how long that took; a program that was killed did not
  succeed. -/
  | ended (succeeded : Bool) (output errorOutput : List UInt8) (milliseconds : Nat)
  deriving DecidableEq, Repr

/-- Starts a program with arguments and waits for it, so many milliseconds at most. -/
abbrev Launcher (m : Type → Type) := String → List String → UInt64 → m ProcessResult

/-- Owl at a path. -/
structure Owl where
  path : String
  config : EngineConfig
  deriving DecidableEq, Repr

/-- Whether a list of characters occurs in another in one piece. -/
def occursIn (part : List Char) : List Char → Bool
  | [] => part.isEmpty
  | c :: cs => part.isPrefixOf (c :: cs) || occursIn part cs

namespace Owl

/-- The engine's name. -/
def name : String := "owl"

/-- The options that are on, in the order in which they are given. -/
def options (c : EngineConfig) : List String :=
  [(!c.simplifyFormula, "--skip-formula-simplifier"),
   (!c.simplifyAcceptance, "--skip-acceptance-simplifier"),
   (!c.portfolio, "--skip-translation-portfolio"),
   (c.complete, "--complete"),
   (c.stateAcceptance, "--state-acceptance")].filterMap fun (on, option) =>
    if on then some option else none

/-- The arguments for a formula with this text. -/
def arguments (owl : Owl) (formula : String) : List String :=
  ["ltl2nba", "-f", formula, "--translation", owl.config.construction.name] ++
    options owl.config

/-- Every automaton in HOA format contains this. -/
def hoaMark : List Char := "HOA:".toList

/-- What the end of the program means for the formula it was started for. -/
def answer (owl : Owl) (labelled : LabelledFormula) : ProcessResult → Except EngineError Automaton
  | .notFound => .error (.engineNotFound owl.path)
  | .notStarted reason => .error (.executionFailed reason)
  | .timedOut => .error (.timeout owl.config.timeout.toNat)
  | .ended false _ errorOutput _ => .error (.executionFailed (trim (Utf8.decode errorOutput)))
  | .ended true output _ milliseconds =>
      let hoa := Utf8.decode output
      if occursIn hoaMark hoa.toList then
        .ok {
          formula := labelled.text
          propositions := labelled.propositions
          hoa
          executionTimeMs := milliseconds }
      else .error (.emptyOutput labelled.text)

/-- Owl as an engine. -/
def engine {m : Type → Type} [Monad m] (launch : Launcher m) (owl : Owl) : Engine m :=
  fun labelled => do
    return owl.answer labelled
      (← launch owl.path (owl.arguments labelled.text) owl.config.timeout)

/-- Owl as a configuration has it, or as `search` finds it. -/
def ofConfig {m : Type → Type} [Monad m] (search : String → m (Option String))
    (c : TranslatorConfig) : m (Except EngineError Owl) := do
  match ← c.owlPath? search with
  | .ok path => return .ok ⟨path, c.engine⟩
  | .error (.missingKey _) => return .error (.engineNotFound name)
  | .error cause => return .error (.executionFailed cause.message)

end Owl
end ActorLtl
