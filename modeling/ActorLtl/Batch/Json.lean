/-
# Outcomes in JSON

A batch outcome as a file holds it.  Every field is required when it is read, except the
error, which is written only if there is one.
-/

import ActorLtl.Batch
import ActorLtl.Formula.Json

namespace ActorLtl

namespace BatchSource

def toJson (s : BatchSource) : Json :=
  .object [("model", .text s.model), ("property", .text s.property)]

def decoder : Decoder BatchSource :=
  .record ["model", "property"] fun fields => do
    return {
      model := ← fields.required "model" .text
      property := ← fields.required "property" .text }

end BatchSource

namespace TranslatedDefinition

def toJson (d : TranslatedDefinition) : Json :=
  .object [("name", .text d.name), ("formula", d.formula.toJson)]

def decoder : Decoder TranslatedDefinition :=
  .record ["name", "formula"] fun fields => do
    return {
      name := ← fields.required "name" .text
      formula := ← fields.required "formula" LabelledFormula.decoder }

end TranslatedDefinition

namespace DefinitionFailure

def toJson (f : DefinitionFailure) : Json :=
  .object [("name", .text f.name), ("message", .text f.message)]

def decoder : Decoder DefinitionFailure :=
  .record ["name", "message"] fun fields => do
    return {
      name := ← fields.required "name" .text
      message := ← fields.required "message" .text }

end DefinitionFailure

namespace BatchStats

def toJson (s : BatchStats) : Json :=
  .object [
    ("definition_count", .natural s.definitionCount),
    ("converted_count", .natural s.convertedCount),
    ("failed_count", .natural s.failedCount),
    ("proposition_count", .natural s.propositionCount),
    ("total_time_ms", .natural s.totalTimeMs)]

def decoder : Decoder BatchStats :=
  .record ["definition_count", "converted_count", "failed_count", "proposition_count",
      "total_time_ms"] fun fields => do
    return {
      definitionCount := ← fields.required "definition_count" .natural
      convertedCount := ← fields.required "converted_count" .natural
      failedCount := ← fields.required "failed_count" .natural
      propositionCount := ← fields.required "proposition_count" .natural
      totalTimeMs := ← fields.required "total_time_ms" .natural }

end BatchStats

namespace BatchOutcome

def toJson (o : BatchOutcome) : Json :=
  .object ([
    ("formulas", .array (o.formulas.map TranslatedDefinition.toJson)),
    ("failures", .array (o.failures.map DefinitionFailure.toJson)),
    ("stats", o.stats.toJson)] ++
    (o.error.map fun message => ("error", Json.text message)).toList)

def decoder : Decoder BatchOutcome :=
  .record ["formulas", "failures", "stats", "error"] fun fields => do
    return {
      formulas := ← fields.required "formulas" (.list TranslatedDefinition.decoder)
      failures := ← fields.required "failures" (.list DefinitionFailure.decoder)
      stats := ← fields.required "stats" BatchStats.decoder
      error := ← fields.optional "error" .text }

end BatchOutcome
end ActorLtl
