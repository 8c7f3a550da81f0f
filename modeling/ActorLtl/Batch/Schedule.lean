/-
# Batches at once

Batches do not depend on one another, so several may run at once, as many as there are
permits.  All are spawned in the order of their sources; each waits for a permit, runs with a
registry of its own, hands its permit back and is collected.  A batch runs in small pieces, so
the pieces of different batches may come in any order (`Work.next`).  Each batch carries the
position of its source, and in the end the outcomes are put into the order of the sources.

The compilers may answer each batch in a way of their own, also if two batches have the same files:
what nodes are numbered with depends on what else is being compiled.  So they are given by position.

`Schedule.Step` is one event of all this, and `Schedule.Reachable` what any sequence of events
leads to.  Where there can be as many permits as configured (`BatchConfig.hasPermits`),
`Batch.translateAll` is to give what every schedule gives that has come to its end.
-/

import ActorLtl.Batch

namespace ActorLtl

/-- What a batch that has a permit still has to do. -/
inductive Work where
  /-- Everything; the registry is there. -/
  | compile (source : BatchSource) (registry : Registry)
  /-- To assemble the definitions that are left, and to report. -/
  | assemble (left : List Definition) (assembled : List Assembled) (registry : Registry)
  /-- Nothing but to hand over the outcome. -/
  | handOver (outcome : BatchOutcome)

namespace Work

variable (compilers : Compilers Id) (config : BatchConfig)

/-- The outcome that a batch has come to by assembling these definitions. -/
def report (assembled : List Assembled) (registry : Registry) : BatchOutcome :=
  let formulas := assembled.filterMap Assembled.translated?
  let failures := assembled.filterMap Assembled.failure?
  { formulas
    failures
    stats := {
      definitionCount := assembled.length
      convertedCount := formulas.length
      failedCount := failures.length
      propositionCount := registry.size
      totalTimeMs := 0 }
    error := none }

/-- Compiles, or assembles one definition, or reports. -/
def next : Work → Work
  | compile source registry =>
      match Batch.compile compilers source with
      | .ok p => assemble (p.selected config.includeLtlDefinitions) [] registry.reset
      | .error cause => handOver (.failed cause)
  | assemble (d :: left) assembled registry =>
      let (result, registry) := (d.assemble config.maxExpressionDepth.toNat).run registry
      assemble left (assembled ++ [(d, result)]) registry
  | assemble [] assembled registry => handOver (report assembled registry)
  | handOver outcome => handOver outcome

/-- Whether there is nothing to do but to hand over. -/
def isDone : Work → Bool
  | handOver _ => true
  | _ => false

/-- How many pieces of work are left. -/
def pieces : Work → Nat
  | compile source _ =>
      match Batch.compile compilers source with
      | .ok p => (p.selected config.includeLtlDefinitions).length + 2
      | .error _ => 1
  | assemble left _ _ => left.length + 1
  | handOver _ => 0

/-- **The pieces get fewer one by one.** -/
theorem pieces_next {w : Work} (busy : w.isDone = false) :
    w.pieces compilers config = (w.next compilers config).pieces compilers config + 1 := by
  cases w with
  | compile source registry =>
    cases compiled : Batch.compile compilers source <;> simp only [next, pieces, compiled]
  | assemble left assembled registry => cases left <;> rfl
  | handOver outcome => cases busy

end Work

/-- How far the batches are.  Each stands with the position of its source. -/
structure Schedule where
  unspawned : List (Nat × BatchSource)
  waiting : List (Nat × BatchSource)
  running : List (Nat × Work)
  ended : List (Nat × BatchOutcome)
  collected : List (Nat × BatchOutcome)

namespace Schedule

/-- Before anything has begun. -/
def start (sources : List BatchSource) : Schedule where
  unspawned := sources.zipIdx.map Prod.swap
  waiting := []
  running := []
  ended := []
  collected := []

/-- One event: the next batch is spawned, any that waits begins if there is a permit left, any
that runs gets on by a piece or ends and hands its permit back, or any that has ended is
collected, once all are spawned. -/
inductive Step (compilers : Nat → Compilers Id) (config : BatchConfig) :
    Schedule → Schedule → Prop
  | spawn {batch : Nat × BatchSource} {unspawned waiting : List (Nat × BatchSource)}
      {running : List (Nat × Work)} {ended collected : List (Nat × BatchOutcome)} :
      Step compilers config ⟨batch :: unspawned, waiting, running, ended, collected⟩
        ⟨unspawned, waiting ++ [batch], running, ended, collected⟩
  | begin (before : List (Nat × BatchSource)) {unspawned after : List (Nat × BatchSource)}
      {running : List (Nat × Work)} {ended collected : List (Nat × BatchOutcome)} {position : Nat}
      {source : BatchSource} :
      running.length < config.permits →
      Step compilers config
        ⟨unspawned, before ++ (position, source) :: after, running, ended, collected⟩
        ⟨unspawned, before ++ after, (position, .compile source ∅) :: running, ended, collected⟩
  | advance (before : List (Nat × Work)) {unspawned waiting : List (Nat × BatchSource)}
      {after : List (Nat × Work)} {ended collected : List (Nat × BatchOutcome)} {position : Nat}
      {work : Work} :
      work.isDone = false →
      Step compilers config
        ⟨unspawned, waiting, before ++ (position, work) :: after, ended, collected⟩
        ⟨unspawned, waiting, before ++ (position, work.next (compilers position) config) :: after,
          ended, collected⟩
  | finish (before : List (Nat × Work)) {unspawned waiting : List (Nat × BatchSource)}
      {after : List (Nat × Work)} {ended collected : List (Nat × BatchOutcome)} {position : Nat}
      {outcome : BatchOutcome} :
      Step compilers config
        ⟨unspawned, waiting, before ++ (position, .handOver outcome) :: after, ended, collected⟩
        ⟨unspawned, waiting, before ++ after, (position, outcome) :: ended, collected⟩
  | collect (before : List (Nat × BatchOutcome)) {waiting : List (Nat × BatchSource)}
      {running : List (Nat × Work)} {after collected : List (Nat × BatchOutcome)}
      {entry : Nat × BatchOutcome} :
      Step compilers config ⟨[], waiting, running, before ++ entry :: after, collected⟩
        ⟨[], waiting, running, before ++ after, collected ++ [entry]⟩

/-- What the events can lead to from a list of sources. -/
inductive Reachable (compilers : Nat → Compilers Id) (config : BatchConfig)
    (sources : List BatchSource) : Schedule → Prop
  | start : Reachable compilers config sources (start sources)
  | step {s s' : Schedule} : Reachable compilers config sources s → Step compilers config s s' →
      Reachable compilers config sources s'

/-- Whether every batch has been collected. -/
def IsOver (s : Schedule) : Prop :=
  s.unspawned = [] ∧ s.waiting = [] ∧ s.running = [] ∧ s.ended = []

/-- The outcomes collected so far, in the order of their sources. -/
def outcomes (s : Schedule) : List BatchOutcome :=
  (s.collected.mergeSort fun a b => a.1 ≤ b.1).map Prod.snd

variable {compilers : Nat → Compilers Id} {config : BatchConfig} {sources : List BatchSource}
  {s s' : Schedule}

/-- No event makes the running batches more than there are permits. -/
theorem Step.length_running_le (event : Step compilers config s s')
    (h : s.running.length ≤ config.permits) : s'.running.length ≤ config.permits := by
  cases event with
  | spawn => exact h
  | begin _ free => exact free
  | advance =>
    simp only [List.length_append, List.length_cons] at h ⊢
    exact h
  | finish =>
    simp only [List.length_append, List.length_cons] at h ⊢
    omega
  | collect => exact h

/-- **There is never a batch without a permit.** -/
theorem Reachable.length_running_le (h : Reachable compilers config sources s) :
    s.running.length ≤ config.permits := by
  induction h with
  | start => exact Nat.zero_le _
  | step _ event ih => exact event.length_running_le ih

end Schedule
end ActorLtl
