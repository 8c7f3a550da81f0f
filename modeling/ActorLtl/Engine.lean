/-
# Translation engines

An engine makes an automaton of a labelled formula, or says why it has none; it may do so in
any monad, so its answers may depend on what it was asked before.  `Batch.toAutomata` hands it
the formulas of a batch, one after the other, and sorts its answers.
-/

import ActorLtl.Batch

namespace ActorLtl

/-- An automaton for a formula. -/
structure Automaton where
  /-- The text of the formula as the engine got it. -/
  formula : String
  /-- The names of the propositions, in the order of their numbers. -/
  propositions : List String
  /-- The automaton in HOA format. -/
  hoa : String
  executionTimeMs : Nat
  deriving DecidableEq, Repr, Inhabited

/-- What makes automata. -/
abbrev Engine (m : Type → Type) := LabelledFormula → m (Except EngineError Automaton)

/-- The automaton of a definition. -/
structure NamedAutomaton where
  name : String
  automaton : Automaton
  deriving DecidableEq, Repr, Inhabited

/-- A batch and what the engine made of its formulas. -/
structure AutomataReport where
  batch : BatchOutcome
  /-- The definitions with automata, in the order of the formulas. -/
  automata : List NamedAutomaton
  /-- The others, in the same order. -/
  engineFailures : List DefinitionFailure
  deriving Repr, BEq, Inhabited

/-- What the engine answered for one definition. -/
abbrev Answered := TranslatedDefinition × Except EngineError Automaton

namespace Answered

/-- The definition with its automaton, if it has one. -/
def automaton? : Answered → Option NamedAutomaton
  | (d, .ok automaton) => some ⟨d.name, automaton⟩
  | (_, .error _) => none

/-- The definition with the reason, if it has no automaton. -/
def failure? : Answered → Option DefinitionFailure
  | (_, .ok _) => none
  | (d, .error cause) => some ⟨d.name, cause.message⟩

/-- The answers in two lists, each in the order of the answers: under the name of its definition, an
automaton stands in the first as it was answered, and an error in the second as its text. -/
inductive Sorted : List Answered → List NamedAutomaton → List DefinitionFailure → Prop
  | nil : Sorted [] [] []
  | automaton {answers : List Answered} {automata : List NamedAutomaton}
      {failures : List DefinitionFailure} (d : TranslatedDefinition) (a : Automaton) :
      Sorted answers automata failures →
      Sorted ((d, .ok a) :: answers) (⟨d.name, a⟩ :: automata) failures
  | failure {answers : List Answered} {automata : List NamedAutomaton}
      {failures : List DefinitionFailure} (d : TranslatedDefinition) (cause : EngineError) :
      Sorted answers automata failures →
      Sorted ((d, .error cause) :: answers) automata (⟨d.name, cause.message⟩ :: failures)

end Answered

/-- What an engine has been asked and has answered on the way from one state to another: one
question after the other, each put in the state that the answer before it has left. -/
inductive Asked {σ : Type} (engine : Engine (StateM σ)) : σ → List Answered → σ → Prop
  | nothing (s : σ) : Asked engine s [] s
  | next {s s' s'' : σ} {d : TranslatedDefinition} {answer : Except EngineError Automaton}
      {answers : List Answered} :
      (engine d.formula).run s = (answer, s') → Asked engine s' answers s'' →
      Asked engine s ((d, answer) :: answers) s''

namespace Batch

variable {m : Type → Type} [Monad m]

/-- Asks the engine for every formula, in order. -/
def askAll (engine : Engine m) (formulas : List TranslatedDefinition) : m (List Answered) :=
  formulas.mapM fun d => do return (d, ← engine d.formula)

/-- What the engine makes of the formulas of a batch. -/
def toAutomata (engine : Engine m) (batch : BatchOutcome) : m AutomataReport := do
  let answers ← askAll engine batch.formulas
  return {
    batch
    automata := answers.filterMap Answered.automaton?
    engineFailures := answers.filterMap Answered.failure? }

/-- Translates a batch with a registry of its own and asks the engine for its formulas. -/
def translateToAutomata (compilers : Compilers m) (config : BatchConfig) (engine : Engine m)
    (source : BatchSource) : m AutomataReport := do
  toAutomata engine (← translate compilers config source)

end Batch
end ActorLtl
