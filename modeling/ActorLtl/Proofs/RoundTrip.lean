/-
# What a property file keeps

A property model that is written to a file and loaded again is the property model with new
identities (`Batch.propertiesOfText_write`).  What does not depend on identities is therefore kept:
the depth and the canonical text of every expression, whether the references are declared, and, if
there are names and values everywhere, the outcome of the batch
(`Batch.readProperties_write`).
-/

import ActorLtl.Proofs.Loading
import ActorLtl.Proofs.Opening

namespace ActorLtl

open Expression (Consecutive)

namespace PropertyModel

variable {p p' : PropertyModel} (h : p'.withoutIds = p.withoutIds)
include h

/-- **Property models that only identities tell apart** have the same depths and canonical texts, -/
theorem summaries_eq :
    p'.definitions.map Definition.summary = p.definitions.map Definition.summary ∧
      p'.ltlDefinitions.map Definition.summary = p.ltlDefinitions.map Definition.summary ∧
      p'.assertionDefinitions.map Definition.summary =
        p.assertionDefinitions.map Definition.summary := by
  have keeps (ds : List Definition) :
      ds.map Definition.summary = (ds.map Definition.withoutIds).map Definition.summary := by
    rw [List.map_map]
    exact List.map_congr_left fun d _ => d.summary_withoutIds.symm
  obtain ⟨definitions, ltlDefinitions, assertionDefinitions⟩ := PropertyModel.mk.inj h
  rw [keeps, definitions, ← keeps, keeps p'.ltlDefinitions, ltlDefinitions, ← keeps,
    keeps p'.assertionDefinitions, assertionDefinitions, ← keeps]
  exact ⟨rfl, rfl, rfl⟩

/-- the same references, -/
theorem referredNames_eq : p'.referredNames = p.referredNames := by
  rw [← referredNames_withoutIds, h, referredNames_withoutIds]

/-- and the same outcome, if every term has a name and every literal a value. -/
theorem translateModel_eq (named : p.IsNamed) (config : BatchConfig) (r : Registry) :
    ((Batch.translateModel config p').run r).1 = ((Batch.translateModel config p).run r).1 := by
  have named' : p'.IsNamed := by
    rwa [← isNamed_withoutIds, h, isNamed_withoutIds]
  rw [← Batch.translateModel_withoutIds named', h, Batch.translateModel_withoutIds named]

end PropertyModel

namespace Batch

variable {σ : Type}

/-- **Written property models are loaded as they are.**  Let a file hold a property model, written
in one line or indented and nested at most 127 levels deep, and let the model declare all instances
that it refers to.  Then it is loaded, and nothing but identities changes; the new ones are the next
that have not been given out.  Every definition of every section keeps its depth and its canonical
text.  If every term has a name and every literal a value, the batch of the file has the outcome of
the property model. -/
theorem readProperties_write (files : Files (StateM σ)) (model : ActorModel) (path : String)
    (layout : Layout) (p : PropertyModel) (n : NodeId) (before after : σ)
    (file : (files.readText path).run before = (.ok (p.toJson.write layout), after))
    (fits : p.toJson.nesting ≤ 127)
    (declared : ∀ name ∈ p.referredNames, model.hasInstance name) :
    ∃ (p' : PropertyModel) (next : NodeId),
      ((readProperties files model path).run n).run before = ((.ok p', next), after) ∧
        p'.withoutIds = p.withoutIds ∧ Consecutive n p'.ids next ∧
        (p'.definitions.map Definition.summary = p.definitions.map Definition.summary ∧
          p'.ltlDefinitions.map Definition.summary = p.ltlDefinitions.map Definition.summary ∧
          p'.assertionDefinitions.map Definition.summary =
            p.assertionDefinitions.map Definition.summary) ∧
        (p.IsNamed → ∀ (config : BatchConfig) (r : Registry) (modelPath : String) (earlier : σ),
          (readModel files modelPath).run earlier = (.ok model, before) →
          (((translate (fileCompilers files) config ⟨modelPath, path⟩).run n).run earlier).1.1 =
            ((translateModel config p).run r).1) := by
  let p' := (p.renumber.run n).1
  have same : p'.withoutIds = p.withoutIds := p.withoutIds_renumber n
  have holds : (propertiesOfText (p.toJson.write layout)).run.run n =
      (some p', (p.renumber.run n).2) := by
    rw [propertiesOfText_write fits]
    rfl
  have accepted : p'.check model = .ok p' := by
    rw [PropertyModel.check_eq_ok_iff, PropertyModel.referredNames_eq same]
    exact declared
  have loaded : ((readProperties files model path).run n).run before =
      ((.ok p', (p.renumber.run n).2), after) := by
    simp only [readProperties_eq, file, holds, accepted]
  refine ⟨p', _, loaded, same, p.consecutive_renumber n, PropertyModel.summaries_eq same, ?_⟩
  intro named config r modelPath earlier compiled
  rw [translate_files_eq compiled loaded]
  exact PropertyModel.translateModel_eq same named config r

/-- Two files with a model of one instance and a property model that refers to it, one call
without arguments and one definition without an expression in it. -/
theorem readProperties_write_door :
    let model : ActorModel := ⟨["Door"], [⟨"door", "Door"⟩]⟩
    let opens : Expression := .member (some (.term 7 (some "door") none))
      (some (.term 7 (some "opens") (some [])))
    let p : PropertyModel :=
      ⟨[⟨"Safety", some (.unary "G" (some (.unary "!" (some opens))))⟩, ⟨"Nothing", none⟩],
        [⟨"Some day", some (.term 3 (some "F") (some [opens]))⟩], []⟩
    let tree : FileTree :=
      ⟨[(["model.json"], .file (some (model.toJson.write .compact))),
        (["property.json"], .file (some (p.toJson.write (.indented 0))))], []⟩
    ∃ (p' : PropertyModel) (next : NodeId),
      ((readProperties FileTree.files model "property.json").run 5).run tree =
        ((.ok p', next), tree) ∧
      p'.withoutIds = p.withoutIds ∧ Consecutive 5 p'.ids next ∧
      (((translate (fileCompilers FileTree.files) .default ⟨"model.json", "property.json"⟩).run
        5).run tree).1.1 = ((translateModel .default p).run ∅).1 := by
  intro model opens p tree
  have modelRead : (readModel FileTree.files "model.json").run tree = (.ok model, tree) := by
    have file : (FileTree.files.readText "model.json").run tree =
        (.ok (model.toJson.write .compact), tree) := rfl
    simp only [readModel_eq, file, modelOfText?_write]
  have file : ((FileTree.files.readText "property.json").run tree) =
      (.ok (p.toJson.write (.indented 0)), tree) := by
    rfl
  have fits : p.toJson.nesting ≤ 127 := by decide
  have declared : ∀ name ∈ p.referredNames, model.hasInstance name := by
    decide
  obtain ⟨p', next, loaded, same, consecutive, -, outcome⟩ :=
    readProperties_write FileTree.files model "property.json" (.indented 0) p 5 tree tree file fits
      declared
  have named : p.IsNamed := by
    simp [PropertyModel.IsNamed, PropertyModel.all, Definition.IsNamed, Expression.SlotNamed,
      Expression.IsNamed, Expression.ListNamed, Expression.HasName, p, opens]
  exact ⟨p', next, loaded, same, consecutive, outcome named .default ∅ "model.json" tree modelRead⟩

end Batch
end ActorLtl
