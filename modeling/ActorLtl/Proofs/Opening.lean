/-
# Batches of files, step by step

What the compilers of files do when the files give what they give: a model and a property model are
read one after the other, identities are only given out while a property file is read, and a file
that cannot be accessed or holds something else ends the batch.
-/

import ActorLtl.Batch.Source

namespace ActorLtl
namespace Batch

variable {σ : Type} {files : Files (StateM σ)} {path : String} {n : NodeId} {before : σ}

section Steps

variable {α β : Type}

/-- One step after the other, with the identities and the files as they are in between. -/
theorem run_bind_run (x : StateT NodeId (StateM σ) α) (f : α → StateT NodeId (StateM σ) β)
    (n : NodeId) (s : σ) :
    ((x >>= f).run n).run s =
      ((f ((x.run n).run s).1.1).run ((x.run n).run s).1.2).run ((x.run n).run s).2 := rfl

/-- A step that gives out no identities. -/
theorem run_liftM_run (x : StateM σ α) (n : NodeId) (s : σ) :
    ((liftM x : StateT NodeId (StateM σ) α).run n).run s = (((x.run s).1, n), (x.run s).2) := rfl

/-- A step that leaves the files alone. -/
theorem run_modifyGet_run (f : NodeId → α × NodeId) (n : NodeId) (s : σ) :
    ((modifyGet f : StateT NodeId (StateM σ) α).run n).run s = (f n, s) := rfl

/-- Translating a batch, told from what the compilers give. -/
theorem translate_run_run (compilers : Compilers (StateT NodeId (StateM σ))) (config : BatchConfig)
    (source : BatchSource) (n : NodeId) (s : σ) :
    ((translate compilers config source).run n).run s =
      let compiled := ((compile compilers source).run n).run s
      ((outcomeOfCompiled config compiled.1.1, compiled.1.2), compiled.2) := by
  rw [translate_eq_map]
  rfl

end Steps

/-- **Reading a model.** -/
theorem readModel_eq :
    (readModel files path).run before =
      match (files.readText path).run before with
      | (.error cause, after) => (.error (.fileAccess path cause.message), after)
      | (.ok text, after) =>
          match modelOfText? text with
          | none => (.error (.invalidModel path (files.refusal "model" text)), after)
          | some model => (.ok model, after) := by
  have opened (f : Except FileError String → StateM σ (Except SourceError ActorModel)) :
      (files.readText path >>= f).run before =
        (f ((files.readText path).run before).1).run ((files.readText path).run before).2 := rfl
  rw [readModel, opened]
  rcases (files.readText path).run before with ⟨_ | text, after⟩
  · rfl
  · dsimp only
    cases modelOfText? text <;> rfl

/-- **Reading a property model.** -/
theorem readProperties_eq {model : ActorModel} :
    ((readProperties files model path).run n).run before =
      match (files.readText path).run before with
      | (.error cause, after) => ((.error (.fileAccess path cause.message), n), after)
      | (.ok text, after) =>
          match (propertiesOfText text).run.run n with
          | (none, next) =>
              ((.error (.invalidPropertyModel path (files.refusal "property model" text)), next),
                after)
          | (some p, next) => ((p.check model, next), after) := by
  rw [readProperties, run_bind_run, run_liftM_run]
  rcases (files.readText path).run before with ⟨_ | text, after⟩
  · rfl
  · dsimp only
    rw [run_bind_run, run_modifyGet_run]
    rcases (propertiesOfText text).run.run n with ⟨_ | p, next⟩ <;> rfl

variable {config : BatchConfig} {source : BatchSource}

theorem compile_files_eq :
    ((compile (fileCompilers files) source).run n).run before =
      match (readModel files source.model).run before with
      | (.error cause, between) => ((.error cause, n), between)
      | (.ok model, between) =>
          ((readProperties files model source.property).run n).run between := by
  rw [compile, run_bind_run, fileCompilers, run_liftM_run]
  rcases (readModel files source.model).run before with ⟨_ | model, between⟩ <;> rfl

/-- **Translating a batch of files.** -/
theorem translateWith_files_eq {registry : Registry} :
    ((translateWith (fileCompilers files) config source registry).run n).run before =
      match ((compile (fileCompilers files) source).run n).run before with
      | ((.error cause, next), after) => (((.failed cause, registry), next), after)
      | ((.ok p, next), after) => (((translateModel config p).run registry, next), after) := by
  rw [translateWith, run_bind_run]
  rcases ((compile (fileCompilers files) source).run n).run before with
    ⟨⟨_ | p, next⟩, after⟩ <;> rfl

/-- A batch of files that are read has the outcome of the property model. -/
theorem translate_files_eq {model : ActorModel} {p : PropertyModel} {next : NodeId}
    {between after : σ} (compiled : (readModel files source.model).run before = (.ok model, between))
    (loaded : ((readProperties files model source.property).run n).run between =
      ((.ok p, next), after)) :
    ((translate (fileCompilers files) config source).run n).run before =
      ((((translateModel config p).run ∅).1, next), after) := by
  rw [translate, run_bind_run, translateWith_files_eq, compile_files_eq, compiled]
  dsimp only
  rw [loaded]
  rfl

end Batch
end ActorLtl
