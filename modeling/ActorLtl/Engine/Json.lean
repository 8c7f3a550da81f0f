/-
# Automata in JSON
-/

import ActorLtl.Batch.Json
import ActorLtl.Engine

namespace ActorLtl

namespace Automaton

def toJson (a : Automaton) : Json :=
  .object [
    ("formula", .text a.formula),
    ("propositions", .array (a.propositions.map .text)),
    ("hoa", .text a.hoa),
    ("execution_time_ms", .natural a.executionTimeMs)]

def decoder : Decoder Automaton :=
  .record ["formula", "propositions", "hoa", "execution_time_ms"] fun fields => do
    return {
      formula := ← fields.required "formula" .text
      propositions := ← fields.required "propositions" (.list .text)
      hoa := ← fields.required "hoa" .text
      executionTimeMs := ← fields.required "execution_time_ms" .natural }

end Automaton

namespace NamedAutomaton

def toJson (n : NamedAutomaton) : Json :=
  .object [("name", .text n.name), ("automaton", n.automaton.toJson)]

def decoder : Decoder NamedAutomaton :=
  .record ["name", "automaton"] fun fields => do
    return {
      name := ← fields.required "name" .text
      automaton := ← fields.required "automaton" Automaton.decoder }

end NamedAutomaton

namespace AutomataReport

def toJson (r : AutomataReport) : Json :=
  .object [
    ("batch", r.batch.toJson),
    ("automata", .array (r.automata.map NamedAutomaton.toJson)),
    ("engine_failures", .array (r.engineFailures.map DefinitionFailure.toJson))]

def decoder : Decoder AutomataReport :=
  .record ["batch", "automata", "engine_failures"] fun fields => do
    return {
      batch := ← fields.required "batch" BatchOutcome.decoder
      automata := ← fields.required "automata" (.list NamedAutomaton.decoder)
      engineFailures := ← fields.required "engine_failures" (.list DefinitionFailure.decoder) }

end AutomataReport
end ActorLtl
