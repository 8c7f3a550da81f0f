/-
# The registry that is handed over

A batch may number its propositions with a registry that its caller keeps.  The outcome never
depends on what that registry held.  What it holds afterwards does: a batch with a property model
empties it first, one without leaves it as it is, so that names from before are still known
(`Batch.translateWith_eq_map`).
-/

import ActorLtl.Batch

namespace ActorLtl
namespace Batch

section Compiled

variable {m : Type → Type} [Monad m] [LawfulMonad m]

/-- **A batch does to any registry what it does to an empty one,** except that without a property
model it leaves the registry as it is.  The compilers may do what they like meanwhile. -/
theorem translateWith_eq_map (compilers : Compilers m) (config : BatchConfig)
    (source : BatchSource) (r : Registry) :
    translateWith compilers config source r =
      (fun fresh : BatchOutcome × Registry =>
        (fresh.1, if fresh.1.isFailed then r else fresh.2)) <$>
          translateWith compilers config source ∅ := by
  unfold translateWith
  rw [map_bind]
  refine bind_congr fun compiled => ?_
  cases compiled with
  | ok p =>
    rw [map_pure]
    rfl
  | error cause =>
    rw [map_pure]
    rfl

end Compiled

section Pure

variable {compilers : Compilers Id} {source : BatchSource} (config : BatchConfig)

/-- With a property model an empty registry meets the model's names. -/
theorem translateWith_empty_of_ok {p : PropertyModel}
    (compiled : compile compilers source = .ok p) :
    translateWith compilers config source ∅ = (translateModel config p).run ∅ := by
  rw [translateWith, compiled]
  rfl

/-- Without one it stays empty, and the outcome says why. -/
theorem translateWith_empty_of_error {cause : SourceError}
    (refused : compile compilers source = .error cause) :
    translateWith compilers config source ∅ = (.failed cause, ∅) := by
  rw [translateWith, refused]
  rfl

end Pure

/-- **The registry is reset exactly if there is a property model.**  Let the compilers give one
answer to each file.  With a property model the batch leaves the registry that an empty one would
have become, with as many names as it counts; without one, the registry it was handed.  So names
from before are gone afterwards unless there was no property model and there were names. -/
theorem translateWith_resets_iff (compilers : Compilers Id) (config : BatchConfig)
    (source : BatchSource) (r : Registry) :
    let fresh := translateWith compilers config source ∅
    let reused := translateWith compilers config source r
    reused.1 = fresh.1 ∧
      (∀ p, compile compilers source = .ok p →
        reused.2 = fresh.2 ∧ reused.2.size = reused.1.stats.propositionCount) ∧
      (∀ cause, compile compilers source = .error cause → reused.2 = r) ∧
      (reused.2.nameList = fresh.2.nameList ↔
        (∃ p, compile compilers source = .ok p) ∨ r.nameList = []) := by
  intro fresh reused
  have law : reused = (fresh.1, if fresh.1.isFailed then r else fresh.2) :=
    translateWith_eq_map compilers config source r
  cases compiled : compile compilers source with
  | ok p =>
    have model : fresh = (translateModel config p).run ∅ :=
      translateWith_empty_of_ok config compiled
    -- The outcome of a property model is never a failed one, so the law picks the fresh registry.
    have same : reused = fresh := by
      rw [law, model]
      rfl
    rw [same, model]
    exact ⟨rfl, fun _ _ => ⟨rfl, rfl⟩, nofun, fun _ => .inl ⟨p, rfl⟩, fun _ => rfl⟩
  | error cause =>
    have empty : fresh = (.failed cause, ∅) := translateWith_empty_of_error config compiled
    have kept : reused = (.failed cause, r) := by
      rw [law, empty]
      rfl
    rw [kept, empty]
    refine ⟨rfl, nofun, fun _ _ => rfl, fun same => .inr same, ?_⟩
    rintro (⟨p, ⟨⟩⟩ | none)
    exact none

/-- A registry that knows a name is handed to a batch whose model is refused: the name is still
known afterwards, and the batch counts none. -/
theorem translateWith_keeps_name :
    let compilers : Compilers Id :=
      { compileModel := fun path => .error (.invalidModel path "not a model")
        compileProperties := fun _ _ => .ok ⟨[], [], []⟩ }
    let source : BatchSource := ⟨"model.json", "property.json"⟩
    let r : Registry := (Registry.empty.intern "stale").2
    let fresh := translateWith compilers BatchConfig.default source ∅
    let reused := translateWith compilers BatchConfig.default source r
    reused.2.lookup? "stale" ≠ none ∧ fresh.2.lookup? "stale" = none ∧
      reused.2.size ≠ reused.1.stats.propositionCount := by
  intro compilers source r fresh reused
  refine ⟨?_, Registry.lookup?_eq_none_iff.2 List.not_mem_nil, ?_⟩
  · show r.lookup? "stale" ≠ none
    rw [Registry.lookup?_intern]
    nofun
  · show r.nameList.length ≠ 0
    rw [(Registry.intern_of_not_mem List.not_mem_nil).2]
    nofun

end Batch
end ActorLtl
