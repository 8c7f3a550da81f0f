/-
# What every schedule comes to

However the pieces of the batches are interleaved, each batch comes to what it would come to
alone: what it still has to do leads to one outcome, and no event changes which
(`Work.outcome_next`).  So the outcomes that are due, those of batches under way included, are the
same in every reachable schedule (`Schedule.Reachable.due_perm`), and once everything has been
collected they are all there is.  An event takes away one of finitely many pieces
(`Schedule.Step.left_eq`), and there is one as long as a batch is not collected
(`Schedule.exists_step`), so every schedule comes to its end.
-/

import ActorLtl.Batch.Schedule
import Mathlib.Algebra.Order.Group.Multiset
import Mathlib.Data.List.Nodup
import Mathlib.Tactic.Abel

namespace ActorLtl

namespace Work

variable (compilers : Compilers Id) (config : BatchConfig)

/-- The outcome that the work leads to if it is done without a break. -/
def outcome : Work → BatchOutcome
  | compile source registry => (Batch.translateWith compilers config source registry).1
  | assemble left assembled registry =>
      let (more, registry) :=
        (Batch.assembleAll config.maxExpressionDepth.toNat left).run registry
      report (assembled ++ more) registry
  | handOver outcome => outcome

/-- **A piece of work leads where the whole work leads.** -/
theorem outcome_next (w : Work) :
    (w.next compilers config).outcome compilers config = w.outcome compilers config := by
  cases w with
  | compile source registry =>
    show _ = (Batch.translateWith compilers config source registry).1
    rw [Batch.translateWith]
    cases compiled : Batch.compile compilers source with
    | ok p =>
      simp only [next, compiled]
      rfl
    | error cause =>
      simp only [next, compiled]
      rfl
  | assemble left assembled registry =>
    cases left with
    | nil =>
      show report assembled registry = report (assembled ++ []) registry
      rw [List.append_nil]
    | cons d left =>
      show report ((assembled ++ [_]) ++ _) _ = report (assembled ++ _ :: _) _
      rw [List.append_assoc]
      rfl
  | handOver outcome => rfl

/-- A batch that begins leads to the batch's outcome. -/
theorem outcome_compile (source : BatchSource) :
    (compile source ∅).outcome compilers config = Batch.translate compilers config source :=
  rfl

end Work

namespace Schedule

section Due

variable (compilers : Nat → Compilers Id) (config : BatchConfig)

/-- The outcome of a batch by itself, with its position. -/
def translated (batch : Nat × BatchSource) : Nat × BatchOutcome :=
  (batch.1, Batch.translate (compilers batch.1) config batch.2)

/-- The outcomes that are due: those that are there, those of the batches under way, and those of
the batches that have not begun. -/
def due (s : Schedule) : List (Nat × BatchOutcome) :=
  s.unspawned.map (translated compilers config) ++ s.waiting.map (translated compilers config) ++
    s.running.map (fun (position, work) =>
      (position, work.outcome (compilers position) config)) ++
    s.ended ++ s.collected

/-- How many events are left. -/
def left (s : Schedule) : Nat :=
  (s.unspawned.map fun batch =>
      (Work.compile batch.2 ∅).pieces (compilers batch.1) config + 4).sum +
    (s.waiting.map fun batch =>
      (Work.compile batch.2 ∅).pieces (compilers batch.1) config + 3).sum +
    (s.running.map fun entry => entry.2.pieces (compilers entry.1) config + 2).sum +
    s.ended.length

end Due

variable {compilers : Nat → Compilers Id} {config : BatchConfig} {sources : List BatchSource}
  {s s' : Schedule}

/-- **An event changes nothing of what is due.** -/
theorem Step.due_perm (event : Step compilers config s s') :
    (s'.due compilers config).Perm (s.due compilers config) := by
  -- Each event moves one entry from one list to another; as multisets the sums are the same.
  rw [← Multiset.coe_eq_coe]
  cases event with
  | spawn =>
    simp only [due, List.map_append, List.map_cons, List.map_nil, ← Multiset.coe_add,
      ← Multiset.cons_coe, ← Multiset.singleton_add, Multiset.coe_nil]
    abel
  | begin =>
    simp only [due, List.map_append, List.map_cons, ← Multiset.coe_add, ← Multiset.cons_coe,
      ← Multiset.singleton_add, Work.outcome_compile, translated]
    abel
  | advance =>
    simp only [due, List.map_append, List.map_cons, Work.outcome_next]
  | finish =>
    simp only [due, List.map_append, List.map_cons, ← Multiset.coe_add, ← Multiset.cons_coe,
      ← Multiset.singleton_add, Work.outcome]
    abel
  | collect =>
    simp only [due, ← Multiset.coe_add, ← Multiset.cons_coe, ← Multiset.singleton_add,
      Multiset.coe_nil]
    abel

/-- **What is due stays the same throughout a schedule.** -/
theorem Reachable.due_perm (h : Reachable compilers config sources s) :
    (s.due compilers config).Perm ((Schedule.start sources).due compilers config) := by
  induction h with
  | start => exact .refl _
  | step _ event ih => exact event.due_perm.trans ih

/-- In the beginning the outcomes of the sources are due, in their order. -/
theorem due_start (compilers : Nat → Compilers Id) (config : BatchConfig)
    (sources : List BatchSource) :
    (start sources).due compilers config = sources.zipIdx.map fun entry =>
      (entry.2, Batch.translate (compilers entry.2) config entry.1) := by
  simp only [due, start, List.map_nil, List.append_nil, List.map_map]
  rfl

/-- Once everything has been collected, that is what is due. -/
theorem IsOver.due_eq (done : s.IsOver) (compilers : Nat → Compilers Id) (config : BatchConfig) :
    s.due compilers config = s.collected := by
  obtain ⟨unspawned, waiting, running, ended⟩ := done
  rw [due, unspawned, waiting, running, ended]
  rfl

/-- **Sorting by position puts what has its positions in order into this order.** -/
theorem mergeSort_eq_of_perm {collected ordered : List (Nat × BatchOutcome)}
    (perm : collected.Perm ordered) (sorted : ordered.Pairwise fun a b => a.1 < b.1) :
    (collected.mergeSort fun a b => a.1 ≤ b.1) = ordered := by
  have nodup : (ordered.map Prod.fst).Nodup :=
    List.pairwise_map.2 (sorted.imp fun below => Nat.ne_of_lt below)
  have sorting : (collected.mergeSort fun a b => a.1 ≤ b.1).Pairwise fun a b => decide (a.1 ≤ b.1) :=
    List.pairwise_mergeSort (fun a b c => by simpa using Nat.le_trans)
      (fun a b => by simpa using Nat.le_total a.1 b.1) collected
  have same := (List.mergeSort_perm collected fun a b => a.1 ≤ b.1).trans perm
  refine @List.Perm.eq_of_pairwise _ (fun a b => a.1 ≤ b.1) _ _ ?_ ?_ ?_ same
  · intro a b mem mem' le ge
    exact List.inj_on_of_nodup_map nodup (same.mem_iff.1 mem) mem' (Nat.le_antisymm le ge)
  · exact sorting.imp fun below => of_decide_eq_true below
  · exact sorted.imp Nat.le_of_lt

/-- Numbering puts positions in order. -/
theorem pairwise_positions {α β : Type} (f : α × Nat → β) (xs : List α) (first : Nat) :
    ((xs.zipIdx first).map fun entry => (entry.2, f entry)).Pairwise fun a b => a.1 < b.1 := by
  induction xs generalizing first with
  | nil => exact .nil
  | cons x xs ih =>
    rw [List.zipIdx_cons, List.map_cons, List.pairwise_cons]
    refine ⟨fun entry mem => ?_, ih (first + 1)⟩
    obtain ⟨numbered, later, rfl⟩ := List.mem_map.1 mem
    exact List.le_snd_of_mem_zipIdx later

/-- **Once everything has been collected there is one outcome for each source,** in the order of the
sources: the one that its batch comes to with the compilers of its position. -/
theorem Reachable.outcomes_eq (h : Reachable compilers config sources s) (done : s.IsOver) :
    s.outcomes = sources.mapIdx fun position source =>
      Batch.translate (compilers position) config source := by
  have due : s.collected.Perm (sources.zipIdx.map fun entry =>
      (entry.2, Batch.translate (compilers entry.2) config entry.1)) := by
    rw [← done.due_eq compilers config, ← due_start]
    exact h.due_perm
  rw [outcomes, mergeSort_eq_of_perm due (pairwise_positions _ sources 0), List.map_map,
    List.mapIdx_eq_zipIdx_map]
  rfl

/-! ## Coming to an end -/

/-- **An event is one less that is left.** -/
theorem Step.left_eq (event : Step compilers config s s') :
    s.left compilers config = s'.left compilers config + 1 := by
  cases event with
  | spawn =>
    simp only [left, List.map_append, List.map_cons, List.map_nil, List.sum_append, List.sum_cons,
      List.sum_nil]
    omega
  | begin =>
    simp only [left, List.map_append, List.map_cons, List.sum_append, List.sum_cons]
    omega
  | @advance _ _ _ _ _ _ position _ busy =>
    have fewer := Work.pieces_next (compilers position) config busy
    simp only [left, List.map_append, List.map_cons, List.sum_append, List.sum_cons]
    omega
  | finish =>
    simp only [left, List.map_append, List.map_cons, List.sum_append, List.sum_cons, Work.pieces,
      List.length_cons]
    omega
  | collect =>
    simp only [left, List.length_append, List.length_cons]
    omega

/-- **There is an event as long as a batch is not collected.** -/
theorem exists_step (compilers : Nat → Compilers Id) (config : BatchConfig)
    (unfinished : ¬ s.IsOver) : ∃ s', Step compilers config s s' := by
  obtain ⟨unspawned, waiting, running, ended, collected⟩ := s
  cases unspawned with
  | cons batch unspawned => exact ⟨_, .spawn⟩
  | nil =>
    cases running with
    | cons entry running =>
      obtain ⟨position, work⟩ := entry
      cases work with
      | compile => exact ⟨_, .advance [] rfl⟩
      | assemble => exact ⟨_, .advance [] rfl⟩
      | handOver => exact ⟨_, .finish []⟩
    | nil =>
      cases waiting with
      | cons batch waiting =>
        have free : 0 < config.permits := Nat.lt_of_lt_of_le Nat.zero_lt_one (Nat.le_max_left ..)
        exact ⟨_, .begin [] free⟩
      | nil =>
        cases ended with
        | cons entry ended => exact ⟨_, .collect []⟩
        | nil => exact absurd ⟨rfl, rfl, rfl, rfl⟩ unfinished

/-- **Every schedule can be brought to its end.** -/
theorem Reachable.exists_isOver {t : Schedule} (h : Reachable compilers config sources t) :
    ∃ t', Reachable compilers config sources t' ∧ t'.IsOver := by
  by_cases done : t.IsOver
  · exact ⟨t, h, done⟩
  · obtain ⟨t', event⟩ := exists_step compilers config done
    have fewer := event.left_eq
    exact (h.step event).exists_isOver
termination_by t.left compilers config
decreasing_by omega

/-- **Batches at once give what batches in order give.**  Let the compilers give one answer to each
file.  In every schedule of any sources there are never more batches running than permits; and
once every batch has been collected there is one outcome for each source, in the order of the
sources: the one of its batch by itself.  So these are the outcomes of the batches in order,
provided that there can be as many permits as configured. -/
theorem outcomes_eq_translate (compilers : Compilers Id) (config : BatchConfig)
    (sources : List BatchSource) (s : Schedule)
    (h : Reachable (fun _ => compilers) config sources s) :
    s.running.length ≤ max 1 config.maxParallelBatches.toNat ∧
      (s.IsOver →
        s.outcomes = sources.map (Batch.translate compilers config) ∧
          (config.hasPermits = true →
            some s.outcomes = Batch.translateAll compilers config sources)) := by
  refine ⟨h.length_running_le, fun done => ?_⟩
  have outcomes : s.outcomes = sources.map (Batch.translate compilers config) := by
    rw [h.outcomes_eq done, List.mapIdx_eq_zipIdx_map]
    conv_rhs => rw [← List.zipIdx_map_fst 0 sources, List.map_map]
    rfl
  refine ⟨outcomes, fun permitted => ?_⟩
  rw [outcomes, Batch.translateAll, Batch.runAll, if_pos permitted]
  exact congrArg some List.idRun_mapM.symm

/-- Three batches at once under two permits, the second without a model and the third the first
once more. -/
theorem outcomes_eq_translate_repeated :
    let compilers : Compilers Id :=
      { compileModel := fun path =>
          if path = "bad.json" then .error (.invalidModel path "not a model") else .ok ⟨[], []⟩
        compileProperties := fun _ _ => .ok ⟨[⟨"one", some (.term 0 (some "y") none)⟩], [], []⟩ }
    let config : BatchConfig := { BatchConfig.default with maxParallelBatches := 2 }
    let good : BatchSource := ⟨"model.json", "property.json"⟩
    let bad : BatchSource := ⟨"bad.json", "property.json"⟩
    ∃ s, Reachable (fun _ => compilers) config [good, bad, good] s ∧ s.IsOver ∧
      s.running.length ≤ 2 ∧
      s.outcomes = [Batch.translate compilers config good, Batch.translate compilers config bad,
        Batch.translate compilers config good] := by
  intro compilers config good bad
  have begun : Reachable (fun _ => compilers) config [good, bad, good]
      (start [good, bad, good]) := .start
  obtain ⟨s, reachable, done⟩ := begun.exists_isOver
  obtain ⟨few, outcomes⟩ := outcomes_eq_translate compilers config [good, bad, good] s reachable
  exact ⟨s, reachable, done, few, (outcomes done).1⟩

end Schedule
end ActorLtl
