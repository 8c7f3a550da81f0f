/-
# Batches from files

The compilers that read models and property models from JSON files.  The nodes of a property
file get their identities while it is read; identities already given out are not given out
again, not even after a file that was refused.
-/

import ActorLtl.Batch
import ActorLtl.Definition.Json
import ActorLtl.Json.Reader
import ActorLtl.Model.Json

namespace ActorLtl
namespace Batch

/-- The model that a text holds. -/
def modelOfText? (text : String) : Option ActorModel :=
  (Json.parse? text).bind (ActorModel.decoder fileLevels)

/-- The property model that a text holds.  It is taken in as far as the text is JSON, and
refused if there is more to the text. -/
def propertiesOfText (text : String) : Expression.Numbering PropertyModel := do
  let document := Json.read text
  let p ← PropertyModel.read fileLevels document.value
  if document.complete then return p else failure

variable {m : Type → Type} [Monad m]

/-- Reads a model from a file. -/
def readModel (files : Files m) (path : String) : m (Except SourceError ActorModel) := do
  match ← files.readText path with
  | .error cause => return .error (.fileAccess path cause.message)
  | .ok text =>
      match modelOfText? text with
      | some model => return .ok model
      | none => return .error (.invalidModel path (files.refusal "model" text))

/-- Reads a property model from a file and checks it against the model. -/
def readProperties (files : Files m) (model : ActorModel) (path : String) :
    StateT NodeId m (Except SourceError PropertyModel) := do
  match ← liftM (files.readText path) with
  | .error cause => return .error (.fileAccess path cause.message)
  | .ok text =>
      match ← modifyGet (propertiesOfText text).run.run with
      | none => return .error (.invalidPropertyModel path (files.refusal "property model" text))
      | some p => return p.check model

/-- The compilers of JSON files. -/
def fileCompilers (files : Files m) : Compilers (StateT NodeId m) where
  compileModel path := liftM (readModel files path)
  compileProperties := readProperties files

end Batch
end ActorLtl
