/-
# Model files

A model file is an object with the declared classes and instances, each list empty if it is
not there.
-/

import ActorLtl.Json.Decoder
import ActorLtl.Model

namespace ActorLtl

namespace ActorInstance

def toJson (i : ActorInstance) : Json :=
  .object [("name", .text i.name), ("class_name", .text i.className)]

def decoder : Decoder ActorInstance :=
  .record ["name", "class_name"] fun fields => do
    return {
      name := ← fields.required "name" .text
      className := ← fields.required "class_name" .text }

end ActorInstance

namespace ActorModel

def toJson (m : ActorModel) : Json :=
  .object [
    ("reactive_classes", .array (m.classes.map .text)),
    ("instances", .array (m.instances.map ActorInstance.toJson))]

def decoder : Decoder ActorModel :=
  .record ["reactive_classes", "instances"] fun fields => do
    return {
      classes := ← fields.withDefault "reactive_classes" (.list .text) []
      instances := ← fields.withDefault "instances" (.list ActorInstance.decoder) [] }

end ActorModel
end ActorLtl
